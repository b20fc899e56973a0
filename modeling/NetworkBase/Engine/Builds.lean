import NetworkBase.Engine.BuildAgreement
import NetworkBase.Engine.Hanging

/-!
# The worker on either build of `IoMultiplexing`

The worker never registers a descriptor: the one loop that calls `AddFd` never has a socket, and
lies behind the second lock besides.  So every dispatch is one of an object without descriptors.
The `select` build lets each of them time out, and its worker goes on until it is stopped or hangs.
The `epoll` build lets each of them fail, and its worker leaves at its first dispatch.
-/

namespace NetworkBase

namespace IoMultiplexing

/-- An object of a build, what is ready at each dispatch, and how many there were. -/
structure Watched (α : Type) where
  io : α
  ready : Nat → Readiness
  dispatched : Nat

/-- The `select` build.  Only an endless dispatch may not return, and the engine asks for none. -/
def selectBuild : IoMultiplexing (Watched Select) where
  addFd fd read write watched :=
    let (result, io) := watched.io.addFd fd read write
    (result, { watched with io })
  deleteFd fd watched :=
    let (result, io) := watched.io.deleteFd fd
    (result, { watched with io })
  dispatch endless timeOutMs watched :=
    match watched.io.dispatch (watched.ready watched.dispatched) endless timeOutMs with
    | none => (0, watched)
    | some (result, io) => (result, { watched with io, dispatched := watched.dispatched + 1 })
  sleep _ watched := (0, watched)
  fdCheck fd watched := ((0, watched.io.fdCheck fd), watched)

/-- The `epoll` build.  An object that is not initialised leaves the values of `FdCheck` alone. -/
def epollBuild : IoMultiplexing (Watched Epoll) where
  addFd fd read write watched :=
    let (result, io) := watched.io.addFd fd read write
    (result, { watched with io })
  deleteFd fd watched :=
    let (result, io) := watched.io.deleteFd fd
    (result, { watched with io })
  dispatch endless timeOutMs watched :=
    match watched.io.dispatch (watched.ready watched.dispatched) endless timeOutMs with
    | none => (0, watched)
    | some (result, io) => (result, { watched with io, dispatched := watched.dispatched + 1 })
  sleep _ watched := (0, watched)
  fdCheck fd watched :=
    match watched.io.fdCheck fd with
    | none => ((-1, false, false), watched)
    | some able => ((0, able), watched)

variable {τ : Type}

/-- Without a descriptor, which is kept, every dispatch of limited length returns the same code. -/
structure Idles (mux : IoMultiplexing τ) (unused : τ → Prop) (code : Int) : Prop where
  sleep : ∀ timeMs io, unused io → unused (mux.sleep timeMs io).2
  dispatch : ∀ timeOutMs io, unused io →
    (mux.dispatch false timeOutMs io).1 = code ∧ unused (mux.dispatch false timeOutMs io).2

/-- A `select` object that has never had a descriptor. -/
def Select.Unused (watched : Watched Select) : Prop :=
  watched.io.map = OrderedMap.empty ∧ watched.io.fdMax = 0

theorem Select.idles : Idles selectBuild Select.Unused 0 where
  sleep _ _ unused := unused
  dispatch timeOutMs watched unused := by
    obtain ⟨empty, zero⟩ := unused
    have returns : watched.io.dispatch (watched.ready watched.dispatched) false timeOutMs =
        some (0, { watched.io with readSet := fun _ => false, writeSet := fun _ => false }) := by
      simp [Select.dispatch, select, zero, empty, OrderedMap.empty, Select.fillSets]
    simp only [selectBuild, returns]
    exact ⟨trivial, empty, zero⟩

/-- An `epoll` object without descriptors, or one whose creation failed. -/
def Epoll.Unused (watched : Watched Epoll) : Prop :=
  watched.io.init = false ∨ watched.io.Barren

theorem Epoll.idles : Idles epollBuild Epoll.Unused (-1) where
  sleep _ _ unused := unused
  dispatch timeOutMs watched unused := by
    rcases unused with failed | barren
    · have returns : watched.io.dispatch (watched.ready watched.dispatched) false timeOutMs =
          some (-1, watched.io) := by
        simp [Epoll.dispatch, failed]
      simp only [epollBuild, returns]
      exact ⟨trivial, .inl failed⟩
    · have full : watched.io.fdNum.toBitVec.toInt ≤ 0 := by
        rw [barren.fdNum]
        decide
      have returns : watched.io.dispatch (watched.ready watched.dispatched) false timeOutMs =
          some (-1, { watched.io with events := List.replicate kEpollMax ⟨0, 0⟩ }) := by
        simp [Epoll.dispatch, epollWait, barren.init, full]
      simp only [epollBuild, returns]
      exact ⟨trivial, .inr ⟨barren.init, barren.interest, barren.fdNum⟩⟩

end IoMultiplexing

namespace Engine

open IoMultiplexing (Idles)
open Mutex (Statement World Turn)

variable {σ ι τ θ : Type} {cls : SocketClass σ ι} {mux : IoMultiplexing τ} {env : Environment ι}
  {unused : τ → Prop} {code : Int}

/-! ## Without descriptors -/

/-- `io_` and `running_` stay as they are. -/
def Frames (before after : Shared σ τ) : Prop :=
  after.engine.io = before.engine.io ∧ after.running = before.running

theorem callProgram_frames (thread : ThreadId) (place : CallPlace) :
    (callProgram thread place).Ensures fun (before : Shared σ τ) _ after =>
      Frames before after := by
  cases place with
  | addLocks socket wake => exact fun _ => ⟨rfl, rfl⟩
  | addUnlocks fd wake => exact fun _ => ⟨rfl, rfl⟩
  | queryLocks fd => exact fun _ => ⟨rfl, rfl⟩
  | queryUnlocks found => exact fun _ => ⟨rfl, rfl⟩
  | _ =>
      intro input before next after runs
      cases runs
      exact ⟨rfl, rfl⟩

theorem begin_frames {thread : ThreadId} {action : UserAction} {before after : Shared σ τ}
    {place : Option CallPlace} (begins : begin cls thread action before = some (place, after)) :
    Frames before after := by
  cases action with
  | add socket wake =>
      cases begins
      exact ⟨rfl, rfl⟩
  | query fd =>
      cases begins
      exact ⟨rfl, rfl⟩
  | call socket call =>
      obtain ⟨engine, acted, same⟩ := Option.map_eq_some_iff.mp begins
      cases same
      rw [act, Option.map_eq_some_iff] at acted
      obtain ⟨object, -, rfl⟩ := acted
      exact ⟨rfl, rfl⟩

/-- Inside `Stop`. -/
def UserPlace.Stops : UserPlace → Prop
  | .stopWakes _ | .stopHalts | .stopWaits => True
  | _ => False

/-- Other threads leave `io_` alone. -/
theorem userProgram_io (place : UserPlace) :
    (userProgram cls place).Ensures fun (before : Shared σ τ) _ after =>
      after.engine.io = before.engine.io := by
  cases place with
  | outside =>
      intro input before next after runs
      cases input with
      | goOn => cases runs
      | stop wake =>
          cases runs
          rfl
      | act action =>
          obtain ⟨⟨call, shared⟩, begins, same⟩ := Option.map_eq_some_iff.mp runs
          cases same
          exact (begin_frames begins).1
  | calls call =>
      apply Statement.Ensures.map
      exact (callProgram_frames .other call).mono fun _ _ _ frames => frames.1
  | _ =>
      intro input before next after runs
      cases runs
      rfl

/-- Outside `Stop`, and unless they call it, other threads do not halt the worker. -/
theorem userProgram_unstopped [DecidableEq θ] {place next : UserPlace} (outside : ¬place.Stops)
    {input : Input} (unstopped : ∀ wake, input ≠ .stop wake) {thread : θ} {owner owner' : Option θ}
    {before after : Shared σ τ}
    (performed : (userProgram cls place).perform thread input owner before =
      some (next, after, owner')) : ¬next.Stops ∧ after.running = before.running := by
  cases place with
  | outside =>
      obtain ⟨⟨found, shared⟩, runs, same⟩ := Option.map_eq_some_iff.mp performed
      cases same
      cases input with
      | goOn => cases runs
      | stop wake => exact absurd rfl (unstopped wake)
      | act action =>
          obtain ⟨⟨call, shared⟩, begins, same⟩ := Option.map_eq_some_iff.mp runs
          cases same
          refine ⟨?_, (begin_frames begins).2⟩
          cases call with
          | none => exact id
          | some call => exact id
  | calls call =>
      have ensures : (userProgram cls (.calls call)).Ensures fun (before : Shared σ τ) next after =>
          ¬next.Stops ∧ after.running = before.running := by
        apply Statement.Ensures.map
        apply (callProgram_frames .other call).mono
        intro before next after frames
        cases next with
        | inl place => exact ⟨id, frames.2⟩
        | inr result => exact ⟨id, frames.2⟩
      exact ensures.perform performed
  | _ => exact absurd trivial outside

/-- Every dispatch so far returned the code. -/
def WorkerPlace.Steady (code : Int) : WorkerPlace → Prop
  | .polls ret => ret = code
  | .returned ret => ret = code
  | .drains => False
  | _ => True

/-- Without descriptors a round returns what its dispatch returned. -/
theorem workerProgram_steady (idles : Idles mux unused code) (codes : code = 0 ∨ code = -1)
    (place : WorkerPlace) :
    (workerProgram cls mux env place).Ensures fun before next after =>
      place.Sound before → place ≠ .relocks → place.Steady code → unused before.engine.io →
        next.Steady code ∧ unused after.engine.io := by
  cases place with
  | loop =>
      intro input before next after runs _ _ _ unregistered
      cases runs
      refine ⟨?_, unregistered⟩
      split
      · trivial
      · trivial
  | sleeps =>
      rw [workerProgram]
      apply working_ensures
      intro shared next engine runs _ _ _ unregistered
      cases runs
      exact ⟨trivial, idles.sleep _ _ unregistered⟩
  | checks =>
      rw [workerProgram]
      apply working_ensures
      intro shared next engine runs _ _ _ unregistered
      cases runs
      refine ⟨?_, unregistered⟩
      split
      · trivial
      · trivial
  | dispatches =>
      rw [workerProgram]
      apply working_ensures
      intro shared next engine runs _ _ _ unregistered
      cases runs
      exact idles.dispatch kMaxSleepMs _ unregistered
  | polls ret =>
      rw [workerProgram]
      apply working_ensures
      intro shared next engine runs _ _ steady unregistered
      cases steady
      rcases codes with rfl | rfl
      · cases runs
        exact ⟨rfl, unregistered⟩
      · cases runs
        exact ⟨rfl, unregistered⟩
  | drains => exact .of_forall fun _ _ _ _ _ steady => steady.elim
  | scans => exact .of_forall fun _ _ _ sound => sound.elim
  | serves found => exact .of_forall fun _ _ _ sound => sound.elim
  | unlocksScanned found => exact .of_forall fun _ _ _ sound => sound.elim
  | relocks => exact .of_forall fun _ _ _ _ passed => absurd rfl passed
  | locks => exact fun _ _ _ _ unregistered => ⟨trivial, unregistered⟩
  | unlocksEmpty => exact fun _ _ _ _ unregistered => ⟨trivial, unregistered⟩
  | leaves => exact fun _ _ _ _ unregistered => ⟨trivial, unregistered⟩
  | unlocksSwapped sockets => exact fun _ _ _ _ unregistered => ⟨trivial, unregistered⟩
  | returned ret =>
      intro input before next after runs _ _ _ unregistered
      cases runs
      refine ⟨trivial, ?_⟩
      split
      · exact unregistered
      · exact unregistered
  | swaps =>
      rw [workerProgram]
      apply working_ensures
      intro shared next engine runs _ _ _ unregistered
      cases runs
      exact ⟨trivial, unregistered⟩
  | closes sockets =>
      cases sockets with
      | nil =>
          rw [workerProgram]
          apply working_ensures
          intro shared next engine runs _ _ _ unregistered
          cases runs
          exact ⟨trivial, unregistered⟩
      | cons entry rest =>
          rw [workerProgram]
          apply working_ensures
          intro shared next engine runs _ _ _ unregistered
          cases runs
          exact ⟨trivial, unregistered⟩
  | disconnects socket rest =>
      rw [workerProgram]
      apply working_ensures
      intro shared next engine runs _ _ _ unregistered
      obtain ⟨object, -, same⟩ := Option.map_eq_some_iff.mp runs
      cases same
      exact ⟨trivial, unregistered⟩
  | callback call rest =>
      cases call with
      | none =>
          intro input before next after runs _ _ _ unregistered
          cases input with
          | act action =>
              obtain ⟨⟨call, shared⟩, begins, same⟩ := Option.map_eq_some_iff.mp runs
              cases same
              exact ⟨trivial, (begin_frames begins).1.symm ▸ unregistered⟩
          | _ =>
              cases runs
              exact ⟨trivial, unregistered⟩
      | some call =>
          apply Statement.Ensures.map
          apply (callProgram_frames .worker call).mono
          intro before next after frames _ _ _ unregistered
          exact ⟨trivial, frames.1.symm ▸ unregistered⟩
  | quits =>
      intro input before next after runs _ _ _ unregistered
      cases runs
      exact ⟨trivial, unregistered⟩
  | ended =>
      intro input before next after runs
      cases runs

/-! ## Whole runs -/

section Runs

variable [DecidableEq θ] {worker : θ} {before after : World (Shared σ τ) Place θ}

/-- The state between two turns: nothing was registered, and every dispatch returned the code. -/
structure Regular (unused : τ → Prop) (code : Int) (worker : θ)
    (world : World (Shared σ τ) Place θ) : Prop where
  behaved : Behaved worker world
  unregistered : unused world.shared.engine.io
  steady : ∀ place, world.place worker = .worker place → place.Steady code

theorem regular_spawned (code : Int) (worker : θ) {engine : Engine σ τ}
    (unregistered : unused engine.io) : Regular unused code worker (spawned worker engine) where
  behaved := behaved_spawned worker engine
  unregistered := unregistered
  steady place stands := by
    have begins : (spawned worker engine).place worker = .worker .loop := if_pos rfl
    cases begins.symm.trans stands
    trivial

theorem Regular.step {turn : Turn Input θ} (regular : Regular unused code worker before)
    (idles : Idles mux unused code) (codes : code = 0 ∨ code = -1)
    (execution : Mutex.step (program cls mux env) turn before = some after) :
    Regular unused code worker after := by
  have behaved := (regular.behaved.step execution).1
  rcases regular.behaved.step_cases execution with ⟨other, user, entered, owner, -, acted, -⟩ |
    ⟨-, place, next, owner, stands, passed, sound, worked, reaches⟩
  · refine ⟨behaved, ?_, ?_⟩
    · rw [(userProgram_io user).perform acted]
      exact regular.unregistered
    · rw [Mutex.place_of_ne execution other.symm]
      exact regular.steady
  · obtain ⟨steady, unregistered⟩ := (workerProgram_steady idles codes place).perform worked sound
      passed (regular.steady place stands) regular.unregistered
    refine ⟨behaved, unregistered, ?_⟩
    intro found stands_found
    cases reaches.symm.trans stands_found
    exact steady

/-! ## The `select` build -/

/-- As long as its dispatches time out, the worker does not halt itself. -/
theorem workerProgram_running (place : WorkerPlace) :
    (workerProgram cls mux env place).Ensures fun before _ after =>
      place.Steady 0 → after.running = before.running := by
  cases place with
  | returned ret =>
      intro input before next after runs steady
      cases steady
      cases runs
      rfl
  | loop =>
      intro input before next after runs _
      cases runs
      rfl
  | locks => exact fun _ _ => rfl
  | relocks => exact fun _ _ => rfl
  | leaves => exact fun _ _ => rfl
  | unlocksEmpty => exact fun _ _ => rfl
  | unlocksScanned found => exact fun _ _ => rfl
  | unlocksSwapped sockets => exact fun _ _ => rfl
  | closes sockets =>
      cases sockets with
      | nil =>
          rw [workerProgram]
          exact working_ensures fun _ _ _ _ _ => rfl
      | cons entry rest =>
          rw [workerProgram]
          exact working_ensures fun _ _ _ _ _ => rfl
  | callback call rest =>
      cases call with
      | none =>
          intro input before next after runs _
          cases input with
          | act action =>
              obtain ⟨⟨call, shared⟩, begins, same⟩ := Option.map_eq_some_iff.mp runs
              cases same
              exact (begin_frames begins).2
          | _ =>
              cases runs
              rfl
      | some call =>
          apply Statement.Ensures.map
          exact (callProgram_frames .worker call).mono fun _ _ _ frames _ => frames.2
  | quits =>
      intro input before next after runs _
      cases runs
      rfl
  | ended =>
      intro input before next after runs
      cases runs
  | _ =>
      rw [workerProgram]
      exact working_ensures fun _ _ _ _ _ => rfl

/-- The worker has not been halted, and nobody is inside `Stop`. -/
structure Unstopped (worker : θ) (world : World (Shared σ τ) Place θ) : Prop where
  runs : world.shared.running = true
  outside : ∀ thread place, world.place thread = .user place → ¬place.Stops

theorem unstopped_spawned (worker : θ) (engine : Engine σ τ) :
    Unstopped worker (spawned worker engine) where
  runs := rfl
  outside thread place stands := by
    by_cases own : thread = worker
    · have begins : (spawned worker engine).place thread = .worker .loop := if_pos own
      cases begins.symm.trans stands
    · have begins : (spawned worker engine).place thread = .user .outside := if_neg own
      cases begins.symm.trans stands
      exact id

theorem Unstopped.step {turn : Turn Input θ} (unstopped : Unstopped worker before)
    (regular : Regular unused 0 worker before) (quiet : ∀ wake, turn.input ≠ .stop wake)
    (execution : Mutex.step (program cls mux env) turn before = some after) :
    Unstopped worker after := by
  rcases regular.behaved.step_cases execution with ⟨-, user, entered, owner, stood, acted, stands⟩ |
    ⟨own, place, next, owner, stood, -, -, worked, stands⟩
  · obtain ⟨outside, runs⟩ :=
      userProgram_unstopped (unstopped.outside _ _ stood) quiet acted
    refine ⟨runs.trans unstopped.runs, ?_⟩
    intro thread found at_found
    by_cases own : thread = turn.thread
    · subst own
      cases stands.symm.trans at_found
      exact outside
    · rw [Mutex.place_of_ne execution own] at at_found
      exact unstopped.outside thread found at_found
  · have runs := (workerProgram_running place).perform worked (regular.steady place stood)
    refine ⟨runs.trans unstopped.runs, ?_⟩
    intro thread found at_found
    by_cases same : thread = turn.thread
    · rw [same, own] at at_found
      cases stands.symm.trans at_found
    · rw [Mutex.place_of_ne execution same] at at_found
      exact unstopped.outside thread found at_found

/-- On the `select` build the worker goes on until another thread calls `Stop`: it never halts
itself, and never leaves the loop that leads to the second lock. -/
theorem goes_on_until_stopped (cls : SocketClass σ ι) (env : Environment ι) (worker : θ)
    (engine : Engine σ (IoMultiplexing.Watched IoMultiplexing.Select))
    (unregistered : IoMultiplexing.Select.Unused engine.io) (turns : List (Turn Input θ))
    (quiet : ∀ turn ∈ turns, ∀ wake, turn.input ≠ .stop wake)
    (world : World (Shared σ (IoMultiplexing.Watched IoMultiplexing.Select)) Place θ)
    (execution : PartialRun.run (Mutex.step (program cls IoMultiplexing.selectBuild env)) turns
      (spawned worker engine) = some world) :
    world.shared.running = true ∧
      ∃ place count, world.place worker = .worker place ∧ place.ahead = some count ∧ count ≤ 9 := by
  have kept : Regular IoMultiplexing.Select.Unused 0 worker world ∧ Unstopped worker world :=
    PartialRun.invariant_of_mem
      (fun world => Regular IoMultiplexing.Select.Unused 0 worker world ∧ Unstopped worker world)
      (fun turn mem _ _ ⟨regular, unstopped⟩ step =>
        ⟨regular.step IoMultiplexing.Select.idles (.inl rfl) step,
          unstopped.step regular (quiet turn mem) step⟩)
      execution ⟨regular_spawned 0 worker unregistered, unstopped_spawned worker engine⟩
  obtain ⟨regular, unstopped⟩ := kept
  obtain ⟨place, stands, sound⟩ := regular.behaved.works
  obtain ⟨count, count_le, near⟩ := sound.ahead unstopped.runs
  exact ⟨unstopped.runs, place, count, stands, near, count_le⟩

/-! ## The `epoll` build -/

/-- How many statements of its own the worker is away from its start in its first round, when that
comes to the dispatch. -/
def WorkerPlace.behind : WorkerPlace → Option Nat
  | .loop => some 0
  | .sleeps => some 1
  | .locks => some 2
  | .checks => some 3
  | .unlocksEmpty | .relocks => some 4
  | .dispatches => some 5
  | .polls _ => some 6
  | .returned _ => some 7
  | _ => none

/-- Behind the loop. -/
def WorkerPlace.Leaves : WorkerPlace → Prop
  | .leaves | .swaps | .unlocksSwapped _ | .closes _ | .disconnects _ _ | .callback _ _ | .quits |
    .ended => True
  | _ => False

/-- Halted for good: in front of the loop or behind it. -/
def WorkerPlace.Halted (shared : Shared σ τ) (place : WorkerPlace) : Prop :=
  shared.running = false ∧ (place = .loop ∨ place.Leaves)

theorem WorkerPlace.behind_le {place : WorkerPlace} {count : Nat}
    (early : place.behind = some count) : count ≤ 7 := by
  cases place <;> cases early <;> omega

/-- A statement of a worker whose dispatches fail, in its first round. -/
theorem workerProgram_behind (place : WorkerPlace) :
    (workerProgram cls mux env place).Ensures fun _ next after =>
      ∀ count, place.behind = some count → place ≠ .relocks → place.Steady (-1) →
        next.behind = some (count + 1) ∨ next.Halted after := by
  cases place with
  | loop =>
      intro input before next after runs count early _ _
      cases early
      cases runs
      split
      · exact .inl rfl
      · rename_i halted
        exact .inr ⟨Bool.eq_false_of_not_eq_true halted, .inr trivial⟩
  | sleeps =>
      rw [workerProgram]
      apply working_ensures
      intro shared next engine runs count early _ _
      cases early
      cases runs
      exact .inl rfl
  | locks =>
      intro shared count early _ _
      cases early
      exact .inl rfl
  | checks =>
      rw [workerProgram]
      apply working_ensures
      intro shared next engine runs count early _ _
      cases early
      cases runs
      left
      split
      · rfl
      · rfl
  | unlocksEmpty =>
      intro shared count early _ _
      cases early
      exact .inl rfl
  | dispatches =>
      rw [workerProgram]
      apply working_ensures
      intro shared next engine runs count early _ _
      cases early
      cases runs
      exact .inl rfl
  | polls ret =>
      rw [workerProgram]
      apply working_ensures
      intro shared next engine runs count early _ steady
      cases early
      cases steady
      cases runs
      exact .inl rfl
  | returned ret =>
      intro input before next after runs count early _ steady
      cases early
      cases steady
      cases runs
      exact .inr ⟨rfl, .inl rfl⟩
  | relocks =>
      apply Statement.Ensures.of_forall
      intro _ _ _ _ _ passed
      exact absurd rfl passed
  | _ =>
      apply Statement.Ensures.of_forall
      intro _ _ _ count early
      cases early

/-- A worker that is halted for good stays so. -/
theorem workerProgram_halted (place : WorkerPlace) :
    (workerProgram cls mux env place).Ensures fun before next after =>
      place.Halted before → next.Halted after := by
  cases place with
  | loop =>
      intro input before next after runs halted
      cases runs
      rw [halted.1]
      exact ⟨halted.1, .inr trivial⟩
  | leaves => exact fun shared halted => ⟨halted.1, .inr trivial⟩
  | swaps =>
      rw [workerProgram]
      apply working_ensures
      intro shared next engine runs halted
      cases runs
      exact ⟨halted.1, .inr trivial⟩
  | unlocksSwapped sockets => exact fun shared halted => ⟨halted.1, .inr trivial⟩
  | closes sockets =>
      cases sockets with
      | nil =>
          rw [workerProgram]
          apply working_ensures
          intro shared next engine runs halted
          cases runs
          exact ⟨halted.1, .inr trivial⟩
      | cons entry rest =>
          rw [workerProgram]
          apply working_ensures
          intro shared next engine runs halted
          cases runs
          exact ⟨halted.1, .inr trivial⟩
  | disconnects socket rest =>
      rw [workerProgram]
      apply working_ensures
      intro shared next engine runs halted
      obtain ⟨object, -, same⟩ := Option.map_eq_some_iff.mp runs
      cases same
      exact ⟨halted.1, .inr trivial⟩
  | callback call rest =>
      cases call with
      | none =>
          intro input before next after runs halted
          cases input with
          | act action =>
              obtain ⟨⟨call, shared⟩, begins, same⟩ := Option.map_eq_some_iff.mp runs
              cases same
              exact ⟨(begin_frames begins).2.trans halted.1, .inr trivial⟩
          | _ =>
              cases runs
              exact ⟨halted.1, .inr trivial⟩
      | some call =>
          apply Statement.Ensures.map
          apply (callProgram_frames .worker call).mono
          intro before next after frames halted
          exact ⟨frames.2.trans halted.1, .inr trivial⟩
  | quits =>
      intro input before next after runs halted
      cases runs
      exact ⟨halted.1, .inr trivial⟩
  | ended =>
      intro input before next after runs
      cases runs
  | _ =>
      apply Statement.Ensures.of_forall
      rintro before next after ⟨-, elsewhere | leaves⟩
      · cases elsewhere
      · exact leaves.elim

/-- The worker is in its first round, each of its statements so far on the way to the dispatch and
back, or halted for good. -/
def Brief (worker : θ) (count : Nat) (world : World (Shared σ τ) Place θ) : Prop :=
  ∃ place, world.place worker = .worker place ∧
    (place.behind = some count ∨ place.Halted world.shared)

theorem Regular.brief {turns : List (Turn Input θ)} {count : Nat}
    (regular : Regular unused (-1) worker before) (idles : Idles mux unused (-1))
    (brief : Brief worker count before)
    (execution : PartialRun.run (Mutex.step (program cls mux env)) turns before = some after) :
    Brief worker (count + turnsOf worker turns) after := by
  induction turns generalizing before count with
  | nil =>
      obtain rfl : before = after := by simpa using execution
      exact brief
  | cons turn turns ih =>
      obtain ⟨middle, first, rest⟩ := PartialRun.run_cons_eq_some.mp execution
      have regular_middle := regular.step idles (.inr rfl) first
      obtain ⟨place, stands, early⟩ := brief
      rcases regular.behaved.step_cases first with ⟨other, user, entered, owner, -, acted, -⟩ |
        ⟨own, found, next, owner, works, passed, -, worked, reaches⟩
      · have halts := (userProgram_keeps cls user).perform acted
        have brief_middle : Brief worker count middle := by
          refine ⟨place, by rw [Mutex.place_of_ne first other.symm, stands], ?_⟩
          refine early.imp_right fun ⟨halted, where_⟩ => ⟨?_, where_⟩
          by_contra runs
          have ran := halts.running (Bool.eq_true_of_not_eq_false runs)
          exact Bool.false_ne_true (halted.symm.trans ran)
        rw [turnsOf, List.countP_cons_of_neg (by simpa using other)]
        exact ih regular_middle brief_middle rest
      · cases stands.symm.trans works
        have brief_middle : Brief worker (count + 1) middle := by
          refine ⟨next, reaches, ?_⟩
          rcases early with early | halted
          · exact (workerProgram_behind place).perform worked count early passed
              (regular.steady place stands)
          · exact .inr ((workerProgram_halted place).perform worked halted)
        rw [turnsOf, List.countP_cons_of_pos (by simpa using own), Nat.add_comm _ 1,
          ← Nat.add_assoc]
        exact ih regular_middle brief_middle rest

/-- On the `epoll` build the worker does not get past its first dispatch: with its eighth statement
at the latest it is halted for good, whether or not another thread calls `Stop`. -/
theorem halts_at_first_dispatch (cls : SocketClass σ ι) (env : Environment ι) (worker : θ)
    (engine : Engine σ (IoMultiplexing.Watched IoMultiplexing.Epoll))
    (unregistered : IoMultiplexing.Epoll.Unused engine.io) (turns : List (Turn Input θ))
    (world : World (Shared σ (IoMultiplexing.Watched IoMultiplexing.Epoll)) Place θ)
    (execution : PartialRun.run (Mutex.step (program cls IoMultiplexing.epollBuild env)) turns
      (spawned worker engine) = some world) :
    turnsOf worker turns ≤ 7 ∨
      ∃ place, world.place worker = .worker place ∧ place.Halted world.shared := by
  have initial : Brief worker 0 (spawned worker engine) := ⟨.loop, if_pos rfl, .inl rfl⟩
  obtain ⟨place, stands, early | halted⟩ :=
    (regular_spawned (-1) worker unregistered).brief IoMultiplexing.Epoll.idles initial execution
  · left
    have early_le := WorkerPlace.behind_le early
    omega
  · exact .inr ⟨place, stands, halted⟩

end Runs

/-- An engine without sockets, over an object without descriptors. -/
def idleEngine {α : Type} (io : α) : Engine (Transmission Unit) (IoMultiplexing.Watched α) :=
  construct ⟨io, fun _ => ⟨[], fun _ => false, fun _ => false⟩, 0⟩ fun _ =>
    Transmission.construct ()

/-- The worker goes through a round without sockets, and on. -/
def idleTurns : List (Turn Input Bool) := List.replicate 9 ⟨true, .goOn⟩

theorem goes_on_until_stopped_idleTurns :
    ∃ world, PartialRun.run (Mutex.step (program (Transmission.socketClass SocketHandler.sink)
        IoMultiplexing.selectBuild alone)) idleTurns
          (spawned true (idleEngine (.construct (fun _ => false) fun _ => false))) = some world ∧
      world.shared.running = true ∧
      ∃ place count, world.place true = .worker place ∧ place.ahead = some count ∧ count ≤ 9 :=
  ⟨_, rfl, goes_on_until_stopped (Transmission.socketClass SocketHandler.sink) alone true
    (idleEngine (.construct (fun _ => false) fun _ => false)) ⟨rfl, rfl⟩ idleTurns
    (fun turn mem wake => by rw [List.eq_of_mem_replicate mem]; nofun) _ rfl⟩

theorem halts_at_first_dispatch_idleTurns :
    ∃ world, PartialRun.run (Mutex.step (program (Transmission.socketClass SocketHandler.sink)
        IoMultiplexing.epollBuild alone)) idleTurns
          (spawned true (idleEngine (.construct 3 []))) = some world ∧
      ∃ place, world.place true = .worker place ∧ place.Halted world.shared := by
  refine ⟨_, rfl, (halts_at_first_dispatch (Transmission.socketClass SocketHandler.sink) alone true
    (idleEngine (.construct 3 [])) (.inr ?_) idleTurns _ rfl).resolve_left (by decide)⟩
  exact ⟨rfl, rfl, rfl⟩

end Engine
end NetworkBase
