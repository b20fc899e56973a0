import NetworkBase.Engine.Blocking
import NetworkBase.Engine.LockDiscipline
import NetworkBase.Engine.ShortAddress

/-!
# The engine hangs after its first socket

`readThread` locks `mutex_` a second time when it finds a socket, so the worker waits for itself,
with the mutex.  From then on nothing the engine does is seen again: no socket is ever connected,
read or written, no `Add` or `Query` passes its lock, and `Stop` never returns.  This is the only
way in which the mutex is lost.
-/

namespace NetworkBase
namespace Engine

open Mutex (Statement Owned Stuck World Turn)

variable {σ ι τ θ : Type}

/-! ## What a statement does to the shared state -/

/-- No socket is connected, read or written, and `running_` is not set. -/
structure Calm (before after : Shared σ τ) : Prop where
  stalls : Stalls before.engine after.engine
  shown : ∃ events, after.engine.trace = before.engine.trace ++ events ∧
    ∀ call socket, .called call socket ∈ events → call = .disconnect
  running : after.running = true → before.running = true

/-- Calm, and no socket leaves `sockets_`, nor is `quit_` touched. -/
structure Keeps (before after : Shared σ τ) : Prop extends Calm before after where
  nonempty : before.engine.sockets.entries ≠ [] → after.engine.sockets.entries ≠ []
  quit : after.quit = before.quit

namespace Calm

variable {before middle after : Shared σ τ}

/-- The sockets stay as they are, and these events are shown. -/
theorem of_events (events : List EngineEvent) (heap_eq : after.engine.heap = before.engine.heap)
    (trace_eq : after.engine.trace = before.engine.trace ++ events)
    (uncalled : ∀ call socket, .called call socket ∉ events)
    (running : after.running = true → before.running = true) : Calm before after :=
  ⟨.of_heap heap_eq, ⟨events, trace_eq, fun call socket mem => absurd mem (uncalled call socket)⟩,
    running⟩

/-- The sockets stay as they are, and nothing is shown. -/
theorem silent (heap_eq : after.engine.heap = before.engine.heap)
    (trace_eq : after.engine.trace = before.engine.trace)
    (running : after.running = true → before.running = true) : Calm before after :=
  of_events [] heap_eq (trace_eq.trans (List.append_nil _).symm) (fun _ _ => List.not_mem_nil)
    running

theorem refl (shared : Shared σ τ) : Calm shared shared := silent rfl rfl id

theorem trans (first : Calm before middle) (second : Calm middle after) : Calm before after := by
  obtain ⟨front, front_eq, front_disconnects⟩ := first.shown
  obtain ⟨back, back_eq, back_disconnects⟩ := second.shown
  refine ⟨first.stalls.trans second.stalls, ⟨front ++ back, ?_, ?_⟩,
    first.running ∘ second.running⟩
  · rw [back_eq, front_eq, List.append_assoc]
  · intro call socket mem
    exact (List.mem_append.mp mem).elim (front_disconnects call socket)
      (back_disconnects call socket)

end Calm

theorem Calm.lock (thread : ThreadId) (shared : Shared σ τ) :
    Calm shared (shared.change (Engine.lock thread)) :=
  .of_events [.lock thread] rfl rfl (by simp) id

theorem Calm.unlock (thread : ThreadId) (shared : Shared σ τ) :
    Calm shared (shared.change (Engine.unlock thread)) :=
  .of_events [.unlock thread] rfl rfl (by simp) id

/-- A calm change that leaves `sockets_` and `quit_` alone. -/
theorem Calm.keeps {before after : Shared σ τ} (calm : Calm before after)
    (sockets_eq : after.engine.sockets = before.engine.sockets)
    (quit_eq : after.quit = before.quit) : Keeps before after :=
  ⟨calm, by rw [sockets_eq]; exact id, quit_eq⟩

/-- `Add` and `Query` keep. -/
theorem callProgram_keeps (thread : ThreadId) (place : CallPlace) :
    (callProgram thread place).Ensures fun (before : Shared σ τ) _ after => Keeps before after := by
  cases place with
  | addLocks socket wake => exact fun shared => (Calm.lock thread shared).keeps rfl rfl
  | addUnlocks fd wake => exact fun shared => (Calm.unlock thread shared).keeps rfl rfl
  | queryLocks fd => exact fun shared => (Calm.lock thread shared).keeps rfl rfl
  | queryUnlocks found => exact fun shared => (Calm.unlock thread shared).keeps rfl rfl
  | addInserts socket wake =>
      intro input before next after runs
      cases runs
      exact ⟨.of_events [.added _ socket] rfl rfl (by simp) id,
        fun _ => OrderedMap.entries_insert_ne_nil _ _ before.engine.sockets, rfl⟩
  | addWakes fd wake =>
      intro input before next after runs
      cases runs
      exact Calm.keeps (.silent rfl rfl id) rfl rfl
  | queryFinds fd =>
      intro input before next after runs
      cases runs
      exact Calm.keeps (.refl before) rfl rfl

/-- A public method of a socket keeps, and a call that begins touches nothing. -/
theorem begin_keeps {cls : SocketClass σ ι} {thread : ThreadId} {action : UserAction}
    {before after : Shared σ τ} {place : Option CallPlace}
    (begins : begin cls thread action before = some (place, after)) : Keeps before after := by
  cases action with
  | add socket wake =>
      cases begins
      exact Calm.keeps (.refl before) rfl rfl
  | query fd =>
      cases begins
      exact Calm.keeps (.refl before) rfl rfl
  | call socket call =>
      obtain ⟨engine, acted, same⟩ := Option.map_eq_some_iff.mp begins
      cases same
      have steps := (allows_object cls · |>.act thread (.call socket call) _ _ acted)
      rw [act, Option.map_eq_some_iff] at acted
      obtain ⟨object, -, rfl⟩ := acted
      exact ⟨⟨.of_steps steps, ⟨[], (List.append_nil _).symm, by simp⟩, id⟩, id, rfl⟩

/-- Other threads keep. -/
theorem userProgram_keeps (cls : SocketClass σ ι) (place : UserPlace) :
    (userProgram cls place).Ensures fun (before : Shared σ τ) _ after => Keeps before after := by
  cases place with
  | outside =>
      intro input before next after runs
      cases input with
      | goOn => cases runs
      | stop wake =>
          cases runs
          exact Calm.keeps (.refl before) rfl rfl
      | act action =>
          obtain ⟨⟨call, shared⟩, begins, same⟩ := Option.map_eq_some_iff.mp runs
          cases same
          exact begin_keeps begins
  | calls call => exact .map (callProgram_keeps .other call)
  | stopWakes wake =>
      intro input before next after runs
      cases runs
      exact Calm.keeps (.silent rfl rfl id) rfl rfl
  | stopHalts =>
      intro input before next after runs
      cases runs
      exact Calm.keeps (.silent rfl rfl fun set => absurd set Bool.false_ne_true) rfl rfl
  | stopWaits =>
      intro input before next after runs
      cases runs
      exact Calm.keeps (.refl before) rfl rfl

/-! ## What the worker does -/

/-- What holds at a place of the worker: it never gets past the second lock of `readThread`, leaves
its loop when it was halted, and sets `quit_` at its end. -/
def WorkerPlace.Sound (shared : Shared σ τ) : WorkerPlace → Prop
  | .relocks => shared.engine.sockets.entries ≠ [] ∧ shared.quit = false
  | .scans | .unlocksScanned _ | .serves _ => False
  | .leaves | .swaps | .unlocksSwapped _ | .closes _ | .disconnects _ _ | .callback _ _ | .quits =>
      shared.running = false ∧ shared.quit = false
  | .ended => shared.running = false ∧ shared.quit = true
  | _ => shared.quit = false

/-- What others do leaves the worker sound. -/
theorem WorkerPlace.Sound.keep {before after : Shared σ τ} {place : WorkerPlace}
    (sound : place.Sound before) (keeps : Keeps before after) : place.Sound after := by
  have halted : before.running = false → after.running = false := by
    intro halted
    by_contra runs
    have ran := keeps.running (Bool.eq_true_of_not_eq_false runs)
    exact Bool.false_ne_true (halted.symm.trans ran)
  have quit := keeps.quit
  cases place with
  | relocks => exact ⟨keeps.nonempty sound.1, quit.trans sound.2⟩
  | scans => exact sound
  | unlocksScanned found => exact sound
  | serves found => exact sound
  | leaves => exact ⟨halted sound.1, quit.trans sound.2⟩
  | swaps => exact ⟨halted sound.1, quit.trans sound.2⟩
  | unlocksSwapped sockets => exact ⟨halted sound.1, quit.trans sound.2⟩
  | closes sockets => exact ⟨halted sound.1, quit.trans sound.2⟩
  | disconnects socket rest => exact ⟨halted sound.1, quit.trans sound.2⟩
  | callback call rest => exact ⟨halted sound.1, quit.trans sound.2⟩
  | quits => exact ⟨halted sound.1, quit.trans sound.2⟩
  | ended => exact ⟨halted sound.1, quit.trans sound.2⟩
  | _ => exact quit.trans sound

section Worker

variable (cls : SocketClass σ ι) (mux : IoMultiplexing τ) (env : Environment ι)

theorem working_ensures {method : Engine σ τ → Option (WorkerPlace × Engine σ τ)}
    {post : Shared σ τ → WorkerPlace → Shared σ τ → Prop}
    (leads : ∀ shared next engine, method shared.engine = some (next, engine) →
      post shared next { shared with engine }) : (working method).Ensures post := by
  intro input before next after runs
  obtain ⟨⟨place, engine⟩, ran, same⟩ := Option.map_eq_some_iff.mp runs
  cases same
  exact leads before next engine ran

/-- A statement of a sound worker, which does not pass the second lock. -/
theorem workerProgram_sound (place : WorkerPlace) :
    (workerProgram cls mux env place).Ensures fun before next after =>
      place.Sound before → place ≠ .relocks → Calm before after ∧ next.Sound after := by
  cases place with
  | loop =>
      intro input before next after runs sound _
      cases runs
      refine ⟨.silent rfl rfl id, ?_⟩
      split
      · exact sound
      · rename_i halted
        exact ⟨Bool.eq_false_of_not_eq_true halted, sound⟩
  | sleeps =>
      rw [workerProgram]
      apply working_ensures
      intro shared next engine runs sound _
      cases runs
      exact ⟨.silent rfl rfl id, sound⟩
  | locks => exact fun shared sound _ => ⟨.lock .worker shared, sound⟩
  | checks =>
      rw [workerProgram]
      apply working_ensures
      intro shared next engine runs sound _
      cases runs
      refine ⟨.refl shared, ?_⟩
      split
      · exact sound
      · rename_i filled
        exact ⟨fun empty => filled (List.isEmpty_iff.mpr empty), sound⟩
  | unlocksEmpty => exact fun shared sound _ => ⟨.unlock .worker shared, sound⟩
  | dispatches =>
      rw [workerProgram]
      apply working_ensures
      intro shared next engine runs sound _
      cases runs
      exact ⟨.silent rfl rfl id, sound⟩
  | polls ret =>
      rw [workerProgram]
      apply working_ensures
      intro shared next engine runs sound _
      simp only [poll] at runs
      split_ifs at runs <;> cases runs <;> exact ⟨.silent rfl rfl id, sound⟩
  | drains =>
      rw [workerProgram]
      apply working_ensures
      intro shared next engine runs sound _
      cases runs
      exact ⟨.silent rfl rfl id, sound⟩
  | relocks => exact fun shared _ passed => absurd rfl passed
  | scans =>
      rw [workerProgram]
      apply working_ensures
      exact fun _ _ _ _ sound => sound.elim
  | unlocksScanned found => exact fun _ sound => sound.elim
  | serves found =>
      rw [workerProgram]
      apply working_ensures
      exact fun _ _ _ _ sound => sound.elim
  | returned ret =>
      intro input before next after runs sound _
      cases runs
      split
      · exact ⟨.silent rfl rfl fun set => absurd set Bool.false_ne_true, sound⟩
      · exact ⟨.refl before, sound⟩
  | leaves => exact fun shared sound _ => ⟨.lock .worker shared, sound⟩
  | swaps =>
      rw [workerProgram]
      apply working_ensures
      intro shared next engine runs sound _
      cases runs
      exact ⟨.of_events [.swapped] rfl rfl (by simp) id, sound⟩
  | unlocksSwapped sockets => exact fun shared sound _ => ⟨.unlock .worker shared, sound⟩
  | closes sockets =>
      cases sockets with
      | nil =>
          rw [workerProgram]
          apply working_ensures
          intro shared next engine runs sound _
          cases runs
          exact ⟨.refl shared, sound⟩
      | cons entry rest =>
          rw [workerProgram]
          apply working_ensures
          intro shared next engine runs sound _
          cases runs
          have stalls : Stalls shared.engine ((tick shared.engine).store entry.2
              ((tick shared.engine).heap entry.2).close) :=
            (Stalls.of_heap rfl).trans (.store (.inr (.inl rfl)))
          exact ⟨⟨stalls, ⟨[], (List.append_nil _).symm, by simp⟩, id⟩, sound⟩
  | disconnects socket rest =>
      rw [workerProgram]
      apply working_ensures
      intro shared next engine runs sound _
      obtain ⟨object, told, same⟩ := Option.map_eq_some_iff.mp runs
      cases same
      have stalls : Stalls shared.engine (((tick shared.engine).record
          (.called .disconnect socket)).store socket object) :=
        (Stalls.of_heap rfl).trans (.store (Socket.moves_of_realDisconnect told))
      refine ⟨⟨stalls, ⟨[.called .disconnect socket], rfl, ?_⟩, id⟩, sound⟩
      intro call other mem
      cases List.mem_singleton.mp mem
      rfl
  | callback call rest =>
      cases call with
      | none =>
          intro input before next after runs sound _
          cases input with
          | act action =>
              obtain ⟨⟨call, shared⟩, begins, same⟩ := Option.map_eq_some_iff.mp runs
              cases same
              exact ⟨(begin_keeps begins).toCalm, WorkerPlace.Sound.keep sound (begin_keeps begins)⟩
          | _ =>
              cases runs
              exact ⟨.silent rfl rfl id, sound⟩
      | some call =>
          apply Statement.Ensures.map
          apply (callProgram_keeps .worker call).mono
          intro before next after keeps sound _
          exact ⟨keeps.toCalm, WorkerPlace.Sound.keep sound keeps⟩
  | quits =>
      intro input before next after runs sound _
      cases runs
      exact ⟨.silent rfl rfl id, sound.1, rfl⟩
  | ended =>
      intro input before next after runs
      cases runs

/-! ## Whole runs -/

variable {cls mux env} {worker : θ} {before after : World (Shared σ τ) Place θ}

/-- The state between two turns. -/
structure Behaved (worker : θ) (world : World (Shared σ τ) Place θ) : Prop where
  owned : Owned Place.holds world
  works : ∃ place, world.place worker = .worker place ∧ place.Sound world.shared
  users : ∀ thread, thread ≠ worker → ∃ place, world.place thread = .user place

variable [DecidableEq θ]

theorem behaved_spawned (worker : θ) (engine : Engine σ τ) :
    Behaved worker (spawned worker engine) where
  owned thread := by
    rw [spawned]
    refine ⟨fun none_owns => absurd none_owns.symm (Option.some_ne_none thread), fun inside => ?_⟩
    simp only at inside
    split at inside
    · cases inside
    · cases inside
  works := ⟨.loop, if_pos rfl, rfl⟩
  users thread other := ⟨.outside, if_neg other⟩

/-- One turn is a statement of another thread, or one of the worker that is not the second lock. -/
theorem Behaved.step_cases {turn : Turn Input θ} (behaved : Behaved worker before)
    (execution : Mutex.step (program cls mux env) turn before = some after) :
    (turn.thread ≠ worker ∧ ∃ place next owner, before.place turn.thread = .user place ∧
        (userProgram cls place).perform turn.thread turn.input before.owner before.shared =
          some (next, after.shared, owner) ∧ after.place turn.thread = .user next) ∨
      turn.thread = worker ∧ ∃ place next owner, before.place worker = .worker place ∧
        place ≠ .relocks ∧ place.Sound before.shared ∧
        (workerProgram cls mux env place).perform worker turn.input before.owner before.shared =
          some (next, after.shared, owner) ∧
        after.place worker = .worker next := by
  obtain ⟨next, shared, owner, performed, rfl⟩ := Mutex.step_eq_some.mp execution
  by_cases own : turn.thread = worker
  · right
    refine ⟨own, ?_⟩
    subst own
    obtain ⟨place, stands, sound⟩ := behaved.works
    rw [stands] at performed
    have mapped : ((workerProgram cls mux env place).map Place.worker).perform turn.thread
      turn.input before.owner before.shared = some (next, shared, owner) := performed
    rw [Statement.perform_map, Option.map_eq_some_iff] at mapped
    obtain ⟨⟨found, rest⟩, worked, same⟩ := mapped
    cases same
    refine ⟨place, found, owner, stands, ?_, sound, worked, World.move_place_self ..⟩
    rintro rfl
    have owns : before.owner = some turn.thread :=
      (behaved.owned turn.thread).mpr (by rw [stands]; rfl)
    rw [workerProgram, Statement.perform, owns] at worked
    cases worked
  · left
    obtain ⟨place, stands⟩ := behaved.users turn.thread own
    rw [stands] at performed
    have mapped : ((userProgram cls place).map Place.user).perform turn.thread turn.input
      before.owner before.shared = some (next, shared, owner) := performed
    rw [Statement.perform_map, Option.map_eq_some_iff] at mapped
    obtain ⟨⟨found, rest⟩, worked, same⟩ := mapped
    cases same
    exact ⟨own, place, found, owner, stands, worked, World.move_place_self ..⟩

/-- Whoever takes a turn, the engine behaves and stays calm. -/
theorem Behaved.step {turn : Turn Input θ} (behaved : Behaved worker before)
    (execution : Mutex.step (program cls mux env) turn before = some after) :
    Behaved worker after ∧ Calm before.shared after.shared := by
  have owned := behaved.owned.step (program_annotated cls mux env) execution
  rcases behaved.step_cases execution with
    ⟨other, user, entered, owner, -, acted, stands⟩ |
    ⟨own, place, next, owner, stands, passed, sound, worked, reaches⟩
  · have keeps := (userProgram_keeps cls user).perform acted
    obtain ⟨place, works, sound⟩ := behaved.works
    refine ⟨⟨owned, ⟨place, ?_, sound.keep keeps⟩, ?_⟩, keeps.toCalm⟩
    · rw [Mutex.place_of_ne execution other.symm, works]
    · intro thread differs
      by_cases own : thread = turn.thread
      · exact ⟨_, own ▸ stands⟩
      · rw [Mutex.place_of_ne execution own]
        exact behaved.users thread differs
  · obtain ⟨calm, sound_next⟩ := (workerProgram_sound cls mux env place).perform worked sound passed
    refine ⟨⟨owned, ⟨next, reaches, sound_next⟩, ?_⟩, calm⟩
    intro thread differs
    rw [Mutex.place_of_ne execution (own ▸ differs)]
    exact behaved.users thread differs

theorem Behaved.run {turns : List (Turn Input θ)} (behaved : Behaved worker before)
    (execution : PartialRun.run (Mutex.step (program cls mux env)) turns before = some after) :
    Behaved worker after ∧ Calm before.shared after.shared := by
  induction turns generalizing before with
  | nil =>
      obtain rfl : before = after := by simpa using execution
      exact ⟨behaved, .refl _⟩
  | cons turn turns ih =>
      obtain ⟨middle, first, rest⟩ := PartialRun.run_cons_eq_some.mp execution
      obtain ⟨between, early⟩ := behaved.step first
      obtain ⟨ended, late⟩ := ih between rest
      exact ⟨ended, early.trans late⟩

/-- Whatever the threads do and in whatever order, on a mutex that blocks no socket is ever
connecting or connected, and the worker calls no method of a socket but `RealDisconnect`: it never
gets past the second lock of `readThread`. -/
theorem never_past_second_lock (cls : SocketClass σ ι) (mux : IoMultiplexing τ)
    (env : Environment ι) (worker : θ) (engine : Engine σ τ) (idle : AllIdle engine)
    (turns : List (Turn Input θ)) (world : World (Shared σ τ) Place θ)
    (execution : PartialRun.run (Mutex.step (program cls mux env)) turns (spawned worker engine) =
      some world) :
    AllIdle world.shared.engine ∧
      (∃ events, world.shared.engine.trace = engine.trace ++ events ∧
        ∀ call socket, .called call socket ∈ events → call = .disconnect) ∧
      world.place worker ≠ .worker .scans ∧
      ∀ found, world.place worker ≠ .worker (.serves found) := by
  obtain ⟨behaved, calm⟩ := (behaved_spawned worker engine).run execution
  obtain ⟨place, works, sound⟩ := behaved.works
  refine ⟨calm.stalls.allIdle idle, calm.shown, ?_, ?_⟩
  · intro scans
    cases works.symm.trans scans
    exact sound
  · intro found serves
    cases works.symm.trans serves
    exact sound

/-! ## The way to the second lock -/

/-- How many statements of its own the worker is away from the second lock, if it finds a socket and
is not halted. -/
def WorkerPlace.ahead : WorkerPlace → Option Nat
  | .relocks => some 0
  | .checks => some 1
  | .locks => some 2
  | .sleeps => some 3
  | .loop => some 4
  | .returned _ => some 5
  | .drains => some 6
  | .polls _ => some 7
  | .dispatches => some 8
  | .unlocksEmpty => some 9
  | _ => none

theorem WorkerPlace.eq_relocks_of_ahead {place : WorkerPlace} (near : place.ahead = some 0) :
    place = .relocks := by
  cases place with
  | relocks => rfl
  | _ => cases near

/-- A worker that has not been halted is on its way. -/
theorem WorkerPlace.Sound.ahead {shared : Shared σ τ} {place : WorkerPlace}
    (sound : place.Sound shared) (runs : shared.running = true) :
    ∃ count ≤ 9, place.ahead = some count := by
  cases place with
  | relocks => exact ⟨0, by omega, rfl⟩
  | checks => exact ⟨1, by omega, rfl⟩
  | locks => exact ⟨2, by omega, rfl⟩
  | sleeps => exact ⟨3, by omega, rfl⟩
  | loop => exact ⟨4, by omega, rfl⟩
  | returned ret => exact ⟨5, by omega, rfl⟩
  | drains => exact ⟨6, by omega, rfl⟩
  | polls ret => exact ⟨7, by omega, rfl⟩
  | dispatches => exact ⟨8, by omega, rfl⟩
  | unlocksEmpty => exact ⟨9, by omega, rfl⟩
  | scans => exact sound.elim
  | unlocksScanned found => exact sound.elim
  | serves found => exact sound.elim
  | _ => exact absurd (sound.1.symm.trans runs) Bool.false_ne_true

/-- A statement of a worker that is on its way, with a socket in `sockets_`: it comes nearer to the
second lock, or finds that it was halted. -/
theorem workerProgram_ahead (cls : SocketClass σ ι) (mux : IoMultiplexing τ) (env : Environment ι)
    (place : WorkerPlace) :
    (workerProgram cls mux env place).Ensures fun before next after =>
      ∀ count, place.ahead = some (count + 1) → before.engine.sockets.entries ≠ [] →
        after.engine.sockets.entries ≠ [] ∧
          ((∃ rest ≤ count, next.ahead = some rest) ∨ next = .leaves) := by
  cases place with
  | loop =>
      intro input before next after runs count near filled
      cases near
      cases runs
      refine ⟨filled, ?_⟩
      split
      · exact .inl ⟨3, by omega, rfl⟩
      · exact .inr rfl
  | sleeps =>
      rw [workerProgram]
      apply working_ensures
      intro shared next engine runs count near filled
      cases near
      cases runs
      exact ⟨filled, .inl ⟨2, by omega, rfl⟩⟩
  | locks =>
      intro shared count near filled
      cases near
      exact ⟨filled, .inl ⟨1, by omega, rfl⟩⟩
  | checks =>
      rw [workerProgram]
      apply working_ensures
      intro shared next engine runs count near filled
      cases near
      cases runs
      refine ⟨filled, .inl ⟨0, by omega, ?_⟩⟩
      rw [if_neg fun empty => filled (List.isEmpty_iff.mp empty)]
      rfl
  | unlocksEmpty =>
      intro shared count near filled
      cases near
      exact ⟨filled, .inl ⟨8, by omega, rfl⟩⟩
  | dispatches =>
      rw [workerProgram]
      apply working_ensures
      intro shared next engine runs count near filled
      cases near
      cases runs
      exact ⟨filled, .inl ⟨7, by omega, rfl⟩⟩
  | polls ret =>
      rw [workerProgram]
      apply working_ensures
      intro shared next engine runs count near filled
      cases near
      simp only [poll] at runs
      split_ifs at runs <;> cases runs
      · exact ⟨filled, .inl ⟨5, by omega, rfl⟩⟩
      · exact ⟨filled, .inl ⟨5, by omega, rfl⟩⟩
      · exact ⟨filled, .inl ⟨5, by omega, rfl⟩⟩
      · exact ⟨filled, .inl ⟨6, by omega, rfl⟩⟩
      · exact ⟨filled, .inl ⟨5, by omega, rfl⟩⟩
  | drains =>
      rw [workerProgram]
      apply working_ensures
      intro shared next engine runs count near filled
      cases near
      cases runs
      exact ⟨filled, .inl ⟨5, by omega, rfl⟩⟩
  | returned ret =>
      intro input before next after runs count near filled
      cases near
      cases runs
      refine ⟨?_, .inl ⟨4, by omega, rfl⟩⟩
      split
      · exact filled
      · exact filled
  | _ =>
      apply Statement.Ensures.of_forall
      intro before next after count near
      cases near

/-- How many of the turns are the worker's. -/
def turnsOf (worker : θ) (turns : List (Turn Input θ)) : Nat :=
  turns.countP fun turn => turn.thread = worker

/-- With a socket in `sockets_` and unless it was halted, every turn of the worker brings it nearer
to the second lock. -/
theorem Behaved.ahead {turns : List (Turn Input θ)} (behaved : Behaved worker before)
    (execution : PartialRun.run (Mutex.step (program cls mux env)) turns before = some after)
    (filled : before.shared.engine.sockets.entries ≠ []) (runs : after.shared.running = true)
    {place : WorkerPlace} (stands : before.place worker = .worker place) {count : Nat}
    (near : place.ahead = some count) :
    after.shared.engine.sockets.entries ≠ [] ∧ ∃ next rest, after.place worker = .worker next ∧
      next.ahead = some rest ∧ rest + turnsOf worker turns ≤ count := by
  induction turns generalizing before place count with
  | nil =>
      obtain rfl : before = after := by simpa using execution
      exact ⟨filled, place, count, stands, near, Nat.le_refl _⟩
  | cons turn turns ih =>
      obtain ⟨middle, first, rest⟩ := PartialRun.run_cons_eq_some.mp execution
      obtain ⟨between, -⟩ := behaved.step first
      obtain ⟨-, late⟩ := between.run rest
      rcases behaved.step_cases first with ⟨other, user, entered, owner, -, acted, -⟩ |
        ⟨own, found, next, owner, works, passed, -, worked, reaches⟩
      · have keeps := (userProgram_keeps cls user).perform acted
        have same : middle.place worker = .worker place := by
          rw [Mutex.place_of_ne first other.symm, stands]
        obtain ⟨filled_end, next, left, ends, next_near, fewer⟩ :=
          ih between rest (keeps.nonempty filled) same near
        refine ⟨filled_end, next, left, ends, next_near, ?_⟩
        rw [turnsOf, List.countP_cons_of_neg (by simpa using other)]
        exact fewer
      · cases stands.symm.trans works
        have counted : ∃ less, count = less + 1 := by
          cases count with
          | zero => exact absurd (WorkerPlace.eq_relocks_of_ahead near) passed
          | succ less => exact ⟨less, rfl⟩
        obtain ⟨less, rfl⟩ := counted
        obtain ⟨filled_middle, nearer⟩ :=
          (workerProgram_ahead cls mux env place).perform worked less near filled
        rcases nearer with ⟨left, left_le, next_near⟩ | rfl
        · obtain ⟨filled_end, last, final, ends, last_near, fewer⟩ :=
            ih between rest filled_middle reaches next_near
          refine ⟨filled_end, last, final, ends, last_near, ?_⟩
          rw [turnsOf, List.countP_cons_of_pos (by simpa using own)]
          rw [turnsOf] at fewer
          omega
        · obtain ⟨found, works', sound⟩ := between.works
          cases reaches.symm.trans works'
          exact absurd (sound.1.symm.trans (late.running runs)) Bool.false_ne_true

/-- A worker on its way that has not come to the second lock has a statement to perform, unless it
waits for a thread inside `Add` or `Query`. -/
theorem Behaved.exists_turn (behaved : Behaved worker before) {place : WorkerPlace}
    (stands : before.place worker = .worker place) {count : Nat}
    (near : place.ahead = some (count + 1))
    (free : place = .locks → before.owner = none) (input : Input) :
    ∃ next, Mutex.step (program cls mux env) ⟨worker, input⟩ before = some next := by
  have performs : ∃ result, (workerProgram cls mux env place).perform worker input before.owner
      before.shared = some result := by
    cases place with
    | locks => exact ⟨_, if_pos (free rfl)⟩
    | unlocksEmpty =>
        have owns : before.owner = some worker :=
          (behaved.owned worker).mpr (by rw [stands]; rfl)
        exact ⟨_, if_pos owns⟩
    | polls ret =>
        simp only [workerProgram, working, poll, Statement.perform]
        split_ifs <;> exact ⟨_, rfl⟩
    | loop => exact ⟨_, rfl⟩
    | sleeps => exact ⟨_, rfl⟩
    | checks => exact ⟨_, rfl⟩
    | dispatches => exact ⟨_, rfl⟩
    | drains => exact ⟨_, rfl⟩
    | returned ret => exact ⟨_, rfl⟩
    | _ => cases near
  obtain ⟨⟨next, shared, owner⟩, performed⟩ := performs
  refine ⟨_, Mutex.step_eq_some.mpr ⟨.worker next, shared, owner, ?_, rfl⟩⟩
  rw [stands]
  change ((workerProgram cls mux env place).map Place.worker).perform worker input before.owner
    before.shared = _
  rw [Statement.perform_map, performed]
  rfl

/-- Once a socket is in `sockets_`, and as long as nobody halts the worker, it performs at most nine
more statements.  Then it stands in front of the second lock with the mutex; before that it always
has a statement to perform, unless another thread holds the mutex it needs. -/
theorem hangs_after_add (cls : SocketClass σ ι) (mux : IoMultiplexing τ) (env : Environment ι)
    (worker : θ) (engine : Engine σ τ) (turns more : List (Turn Input θ))
    (before after : World (Shared σ τ) Place θ)
    (execution : PartialRun.run (Mutex.step (program cls mux env)) turns (spawned worker engine) =
      some before)
    (filled : before.shared.engine.sockets.entries ≠ [])
    (further : PartialRun.run (Mutex.step (program cls mux env)) more before = some after)
    (runs : after.shared.running = true) :
    turnsOf worker more ≤ 9 ∧
      (after.place worker = .worker .relocks ∧ Stuck (program cls mux env) worker after ∨
        after.place worker = .worker .locks ∧
          (∃ other, other ≠ worker ∧ after.owner = some other) ∨
        ∀ input, ∃ next, Mutex.step (program cls mux env) ⟨worker, input⟩ after = some next) := by
  obtain ⟨behaved, -⟩ := (behaved_spawned worker engine).run execution
  obtain ⟨behaved_end, calm⟩ := behaved.run further
  obtain ⟨place, stands, sound⟩ := behaved.works
  obtain ⟨count, count_le, near⟩ := sound.ahead (calm.running runs)
  obtain ⟨-, next, rest, ends, next_near, fewer⟩ :=
    behaved.ahead further filled runs stands near
  refine ⟨by omega, ?_⟩
  cases rest with
  | zero =>
      left
      obtain rfl := WorkerPlace.eq_relocks_of_ahead next_near
      have owns : after.owner = some worker :=
        (behaved_end.owned worker).mpr (by rw [ends]; rfl)
      exact ⟨ends, owns, by rw [ends]; trivial⟩
  | succ left =>
      right
      by_cases waits : next = .locks ∧ after.owner ≠ none
      · obtain ⟨rfl, taken⟩ := waits
        obtain ⟨other, owns⟩ := Option.ne_none_iff_exists'.mp taken
        refine .inl ⟨ends, other, ?_, owns⟩
        rintro rfl
        have inside := (behaved_end.owned other).mp owns
        rw [ends] at inside
        cases inside
      · right
        intro input
        refine behaved_end.exists_turn ends next_near ?_ input
        exact fun locks => not_not.mp fun taken => waits ⟨locks, taken⟩

/-! ## The worker waits for itself -/

/-- Nothing of the engine changed that its methods would show. -/
structure Silent (before after : Shared σ τ) : Prop where
  trace : after.engine.trace = before.engine.trace
  sockets : after.engine.sockets = before.engine.sockets
  fd : after.engine.fd = before.engine.fd
  quit : after.quit = before.quit

/-- In front of a lock of `Add` or `Query`, or inside `Stop`. -/
def UserPlace.Waits : UserPlace → Prop
  | .calls (.addLocks _ _) | .calls (.queryLocks _) => True
  | .stopWakes _ | .stopHalts | .stopWaits => True
  | _ => False

theorem begin_silent {cls : SocketClass σ ι} {thread : ThreadId} {action : UserAction}
    {before after : Shared σ τ} {place : Option CallPlace}
    (begins : begin cls thread action before = some (place, after)) : Silent before after := by
  cases action with
  | add socket wake =>
      cases begins
      exact ⟨rfl, rfl, rfl, rfl⟩
  | query fd =>
      cases begins
      exact ⟨rfl, rfl, rfl, rfl⟩
  | call socket call =>
      obtain ⟨engine, acted, same⟩ := Option.map_eq_some_iff.mp begins
      cases same
      rw [act, Option.map_eq_some_iff] at acted
      obtain ⟨object, -, rfl⟩ := acted
      exact ⟨rfl, rfl, rfl, rfl⟩

/-- What another thread does outside the critical sections, while nobody passes a lock. -/
theorem userProgram_silent {place : UserPlace} (outside : place.holds = false)
    {run : Input → Shared σ τ → Option (UserPlace × Shared σ τ)}
    (stands : userProgram cls place = .work run) {input : Input} {before after : Shared σ τ}
    {next : UserPlace} (alive : before.quit = false)
    (runs : run input before = some (next, after)) :
    Silent before after ∧ (place.Waits → next.Waits) := by
  cases place with
  | outside =>
      cases stands
      refine ⟨?_, False.elim⟩
      cases input with
      | goOn => cases runs
      | stop wake =>
          cases runs
          exact ⟨rfl, rfl, rfl, rfl⟩
      | act action =>
          obtain ⟨⟨call, shared⟩, begins, same⟩ := Option.map_eq_some_iff.mp runs
          cases same
          exact begin_silent begins
  | calls call =>
      cases call with
      | addWakes fd wake =>
          cases stands
          cases runs
          exact ⟨⟨rfl, rfl, rfl, rfl⟩, False.elim⟩
      | addInserts socket wake => cases outside
      | queryFinds fd => cases outside
      | _ => cases stands
  | stopWakes wake =>
      cases stands
      cases runs
      exact ⟨⟨rfl, rfl, rfl, rfl⟩, fun _ => trivial⟩
  | stopHalts =>
      cases stands
      cases runs
      exact ⟨⟨rfl, rfl, rfl, rfl⟩, fun _ => trivial⟩
  | stopWaits =>
      cases stands
      cases runs
      refine ⟨⟨rfl, rfl, rfl, rfl⟩, fun _ => ?_⟩
      rw [if_pos (by rw [alive]; exact Bool.false_ne_true)]
      trivial

theorem Silent.trans {first second third : Shared σ τ} (early : Silent first second)
    (late : Silent second third) : Silent first third :=
  ⟨late.trace.trans early.trace, late.sockets.trans early.sockets, late.fd.trans early.fd,
    late.quit.trans early.quit⟩

/-- One turn while the worker waits for itself. -/
theorem Behaved.step_of_stuck {turn : Turn Input θ} (behaved : Behaved worker before)
    (stands : before.place worker = .worker .relocks)
    (execution : Mutex.step (program cls mux env) turn before = some after) :
    Silent before.shared after.shared ∧ after.place worker = .worker .relocks ∧
      ∀ thread place, before.place thread = .user place → place.Waits →
        ∃ next, after.place thread = .user next ∧ next.Waits := by
  have alive : before.shared.quit = false := by
    obtain ⟨place, works, sound⟩ := behaved.works
    cases stands.symm.trans works
    exact sound.2
  have owns : before.owner = some worker := (behaved.owned worker).mpr (by rw [stands]; rfl)
  have stuck : Stuck (program cls mux env) worker before := ⟨owns, by rw [stands]; trivial⟩
  obtain ⟨differs, run, next, shared, works, runs, rfl⟩ := stuck.step_cases execution
  obtain ⟨place, user⟩ := behaved.users turn.thread differs
  have outside : place.holds = false := by
    by_contra inside
    have also : Place.holds (before.place turn.thread) = true := by
      rw [user]
      exact Bool.eq_true_of_not_eq_false inside
    exact differs (Option.some.inj (((behaved.owned turn.thread).mpr also).symm.trans owns))
  rw [user] at works
  obtain ⟨work, found, performs, ran, rfl⟩ := Statement.map_eq_work works runs
  obtain ⟨silent, waits⟩ := userProgram_silent outside performs alive ran
  refine ⟨silent, by rw [World.move_place_of_ne differs.symm, stands], ?_⟩
  intro thread other others waiting
  by_cases own : thread = turn.thread
  · subst own
    cases user.symm.trans others
    exact ⟨found, World.move_place_self .., waits waiting⟩
  · exact ⟨other, by rw [World.move_place_of_ne own, others], waiting⟩

/-- Once the worker stands in front of the second lock, it stands there forever, and nothing the
engine does is seen again: `sockets_`, the counter and the trace stay as they are, so nobody passes
the lock of `Add` or `Query` any more, and whoever waits there or is inside `Stop` stays there. -/
theorem stuck_forever (cls : SocketClass σ ι) (mux : IoMultiplexing τ) (env : Environment ι)
    (worker : θ) (engine : Engine σ τ) (turns more : List (Turn Input θ))
    (before after : World (Shared σ τ) Place θ)
    (execution : PartialRun.run (Mutex.step (program cls mux env)) turns (spawned worker engine) =
      some before)
    (stands : before.place worker = .worker .relocks)
    (further : PartialRun.run (Mutex.step (program cls mux env)) more before = some after) :
    Silent before.shared after.shared ∧ after.place worker = .worker .relocks ∧
      after.owner = some worker ∧ turnsOf worker more = 0 ∧
      ∀ thread place, before.place thread = .user place → place.Waits →
        ∃ next, after.place thread = .user next ∧ next.Waits := by
  obtain ⟨behaved, -⟩ := (behaved_spawned worker engine).run execution
  clear execution
  induction more generalizing before with
  | nil =>
      obtain rfl : before = after := by simpa using further
      exact ⟨⟨rfl, rfl, rfl, rfl⟩, stands, (behaved.owned worker).mpr (by rw [stands]; rfl), rfl,
        fun _ place at_place waits => ⟨place, at_place, waits⟩⟩
  | cons turn more ih =>
      obtain ⟨middle, first, rest⟩ := PartialRun.run_cons_eq_some.mp further
      obtain ⟨early, still, waiting⟩ := behaved.step_of_stuck stands first
      obtain ⟨late, ends, owns, none_taken, waited⟩ := ih middle still rest (behaved.step first).1
      refine ⟨early.trans late, ends, owns, ?_, ?_⟩
      · have other : turn.thread ≠ worker := by
          rcases behaved.step_cases first with ⟨other, -⟩ | ⟨-, place, -, -, works, passed, -⟩
          · exact other
          · cases stands.symm.trans works
            exact absurd rfl passed
        rw [turnsOf, List.countP_cons_of_neg (by simpa using other)]
        exact none_taken
      · intro thread place at_place waits
        obtain ⟨next, at_next, waits_next⟩ := waiting thread place at_place waits
        exact waited thread next at_next waits_next

/-! ## The mutex is lost in no other way -/

/-- The worker stands in front of the second lock, or is about to find a socket. -/
def Doomed (worker : θ) (world : World (Shared σ τ) Place θ) : Prop :=
  world.place worker = .worker .relocks ∨
    world.place worker = .worker .checks ∧ world.shared.engine.sockets.entries ≠ []

/-- Statements of `Add` or `Query` in front of the unlock. -/
def CallPlace.left : CallPlace → Nat
  | .addInserts _ _ => 1
  | .queryFinds _ => 1
  | _ => 0

/-- Statements of a critical section in front of the unlock. -/
def Place.left : Place → Nat
  | .worker .checks => 1
  | .worker .swaps => 1
  | .worker (.callback (some call) _) => call.left
  | .user (.calls call) => call.left
  | _ => 0

/-- The critical section at this place does not lead to the second lock. -/
def Place.Harmless (shared : Shared σ τ) : Place → Prop
  | .worker .checks => shared.engine.sockets.entries = []
  | .worker .relocks => False
  | .worker .scans => False
  | _ => True

/-- The sections of `Add` and `Query` come to their unlock. -/
theorem callProgram_releases {κ : Type} {thread : ThreadId} {call : CallPlace}
    (inside : call.holds = true) {rename : CallPlace ⊕ CallResult → κ}
    {run : Input → Shared σ τ → Option (κ × Shared σ τ)}
    (stands : (callProgram thread call).map rename = .work run) (input : Input)
    (shared : Shared σ τ) :
    ∃ next after, run input shared = some (rename (.inl next), after) ∧ next.left < call.left := by
  cases call with
  | addInserts socket wake =>
      cases stands
      exact ⟨_, _, rfl, Nat.zero_lt_one⟩
  | queryFinds fd =>
      cases stands
      exact ⟨_, _, rfl, Nat.zero_lt_one⟩
  | addUnlocks fd wake => cases stands
  | queryUnlocks found => cases stands
  | _ => cases inside

/-- Every critical section but that of the worker that finds a socket comes to its unlock. -/
theorem program_releases (cls : SocketClass σ ι) (mux : IoMultiplexing τ) (env : Environment ι) :
    Mutex.Releases (program cls mux env) Place.holds Place.Harmless Place.left where
  unlocked {place shared} inside harmless locks := by
    cases place with
    | worker place =>
        cases place with
        | relocks => exact harmless
        | callback call rest =>
            cases call with
            | none => cases inside
            | some call => cases call <;> first | exact locks | cases inside
        | checks => exact locks
        | unlocksEmpty => exact locks
        | scans => exact harmless
        | unlocksScanned found => exact locks
        | swaps => exact locks
        | unlocksSwapped sockets => exact locks
        | _ => cases inside
    | user place =>
        cases place with
        | calls call => cases call <;> first | exact locks | cases inside
        | _ => cases inside
  works {place run} inside stands input shared harmless := by
    cases place with
    | worker place =>
        cases place with
        | relocks => exact harmless.elim
        | scans => exact harmless.elim
        | checks =>
            cases stands
            have empty : shared.engine.sockets.entries = [] := harmless
            refine ⟨.worker .unlocksEmpty, shared, ?_, trivial, Nat.zero_lt_one⟩
            simp [check, empty]
        | swaps =>
            cases stands
            exact ⟨_, _, rfl, trivial, Nat.zero_lt_one⟩
        | unlocksEmpty => cases stands
        | unlocksScanned found => cases stands
        | unlocksSwapped sockets => cases stands
        | callback call rest =>
            cases call with
            | none => cases inside
            | some call =>
                have works : ((callProgram .worker call).map _).map Place.worker = .work run :=
                  stands
                rw [Statement.map_map] at works
                obtain ⟨next, after, runs, less⟩ := callProgram_releases inside works input shared
                exact ⟨_, after, runs, trivial, less⟩
        | _ => cases inside
    | user place =>
        cases place with
        | calls call =>
            have works : ((callProgram .other call).map _).map Place.user = .work run := stands
            rw [Statement.map_map] at works
            obtain ⟨next, after, runs, less⟩ := callProgram_releases inside works input shared
            exact ⟨_, after, runs, trivial, less⟩
        | _ => cases inside

/-- A worker that is doomed stays doomed. -/
theorem Behaved.step_of_doomed {turn : Turn Input θ} (behaved : Behaved worker before)
    (doomed : Doomed worker before)
    (execution : Mutex.step (program cls mux env) turn before = some after) :
    Doomed worker after := by
  rcases behaved.step_cases execution with ⟨other, user, entered, owner, -, acted, -⟩ |
    ⟨own, place, next, owner, works, passed, -, worked, reaches⟩
  · have keeps := (userProgram_keeps cls user).perform acted
    rw [Doomed, Mutex.place_of_ne execution other.symm]
    exact doomed.imp_right fun ⟨checks, filled⟩ => ⟨checks, keeps.nonempty filled⟩
  · rcases doomed with relocks | ⟨checks, filled⟩
    · cases relocks.symm.trans works
      exact absurd rfl passed
    · left
      cases checks.symm.trans works
      have found : (if before.shared.engine.sockets.entries.isEmpty then .unlocksEmpty
          else .relocks) = next := congrArg Prod.fst (Option.some.inj worked)
      rw [if_neg fun empty => filled (List.isEmpty_iff.mp empty)] at found
      rw [reaches, found]

/-- In every state a run reaches, whoever owns the mutex can still give it back by its own
statements, except for a worker that found a socket or is about to. -/
theorem mutex_released_iff (cls : SocketClass σ ι) (mux : IoMultiplexing τ) (env : Environment ι)
    (worker : θ) (engine : Engine σ τ) (turns : List (Turn Input θ))
    (world : World (Shared σ τ) Place θ)
    (execution : PartialRun.run (Mutex.step (program cls mux env)) turns (spawned worker engine) =
      some world) (thread : θ) (owns : world.owner = some thread) :
    (∃ more after, PartialRun.run (Mutex.step (program cls mux env)) more world = some after ∧
      after.owner = none) ↔ ¬Doomed worker world := by
  obtain ⟨behaved, -⟩ := (behaved_spawned worker engine).run execution
  constructor
  · rintro ⟨more, after, further, free⟩ doomed
    have always : Behaved worker after ∧ Doomed worker after :=
      PartialRun.invariant_of_mem (fun world => Behaved worker world ∧ Doomed worker world)
        (fun _ _ _ _ ⟨behaved, doomed⟩ step =>
          ⟨(behaved.step step).1, behaved.step_of_doomed doomed step⟩) further ⟨behaved, doomed⟩
    obtain ⟨behaved_end, doomed_end⟩ := always
    have inside : Place.holds (after.place worker) = true := by
      rcases doomed_end with relocks | ⟨checks, -⟩
      · rw [relocks]
        rfl
      · rw [checks]
        rfl
    exact Option.some_ne_none worker (((behaved_end.owned worker).mpr inside).symm.trans free)
  · intro safe
    have inside := (behaved.owned thread).mp owns
    have harmless : (world.place thread).Harmless world.shared := by
      by_cases own : thread = worker
      · subst own
        obtain ⟨place, works, sound⟩ := behaved.works
        rw [works]
        cases place with
        | relocks => exact safe (.inl works)
        | checks => exact not_not.mp fun filled => safe (.inr ⟨works, filled⟩)
        | scans => exact sound
        | _ => trivial
      · obtain ⟨place, user⟩ := behaved.users thread own
        rw [user]
        trivial
    obtain ⟨count, -, after, releases, free⟩ := Mutex.exists_release
      (program_releases cls mux env) (program_annotated cls mux env) behaved.owned inside harmless
      Input.goOn
    exact ⟨_, after, releases, free⟩

end Worker

/-! ## One socket -/

/-- The threads around an engine of plain transmissions. -/
abbrev sinkProgram : Mutex.Program (Shared (Transmission Unit) Unit) Input Place :=
  program (Transmission.socketClass SocketHandler.sink) idleMux alone

/-- A thread adds a socket. -/
def addTurns : List (Turn Input Bool) :=
  [⟨false, .act (.add 3 (.accepts 1))⟩, ⟨false, .goOn⟩, ⟨false, .goOn⟩, ⟨false, .goOn⟩,
    ⟨false, .goOn⟩]

/-- The worker begins a round. -/
def roundTurns : List (Turn Input Bool) :=
  [⟨true, .goOn⟩, ⟨true, .goOn⟩, ⟨true, .goOn⟩, ⟨true, .goOn⟩]

/-- The threads around a new engine; the worker is `true`. -/
def spawnedAlone : World (Shared (Transmission Unit) Unit) Place Bool :=
  spawned true (construct () fun _ => Socket.construct (Transmission.construct ()).sub)

theorem never_past_second_lock_addTurns :
    ∃ world, PartialRun.run (Mutex.step sinkProgram) (addTurns ++ roundTurns) spawnedAlone =
        some world ∧
      AllIdle world.shared.engine ∧
      (∃ events, world.shared.engine.trace = [] ++ events ∧
        ∀ call socket, .called call socket ∈ events → call = .disconnect) ∧
      world.place true ≠ .worker .scans ∧
      ∀ found, world.place true ≠ .worker (.serves found) :=
  ⟨_, rfl, never_past_second_lock (Transmission.socketClass SocketHandler.sink) idleMux alone true
    (construct () fun _ => Socket.construct (Transmission.construct ()).sub)
    (allIdle_construct () _) (addTurns ++ roundTurns) _ rfl⟩

theorem hangs_after_add_addTurns :
    ∃ before after, PartialRun.run (Mutex.step sinkProgram) addTurns spawnedAlone = some before ∧
      PartialRun.run (Mutex.step sinkProgram) roundTurns before = some after ∧
      turnsOf true roundTurns ≤ 9 ∧
      (after.place true = .worker .relocks ∧ Stuck sinkProgram true after ∨
        after.place true = .worker .locks ∧ (∃ other, other ≠ true ∧ after.owner = some other) ∨
        ∀ input, ∃ next, Mutex.step sinkProgram ⟨true, input⟩ after = some next) :=
  ⟨_, _, rfl, rfl, hangs_after_add (Transmission.socketClass SocketHandler.sink) idleMux alone true
    (construct () fun _ => Socket.construct (Transmission.construct ()).sub) addTurns roundTurns _ _
    rfl (List.cons_ne_nil _ _) rfl rfl⟩

/-- Another thread asks for the socket, and waits. -/
theorem stuck_forever_addTurns :
    ∃ before after, PartialRun.run (Mutex.step sinkProgram) (addTurns ++ roundTurns)
        spawnedAlone = some before ∧
      PartialRun.run (Mutex.step sinkProgram) [⟨false, .act (.query 1)⟩] before = some after ∧
      Silent before.shared after.shared ∧ after.place true = .worker .relocks ∧
      after.owner = some true ∧ turnsOf true [⟨false, .act (.query 1)⟩] = 0 ∧
      ∀ thread place, before.place thread = .user place → place.Waits →
        ∃ next, after.place thread = .user next ∧ next.Waits :=
  ⟨_, _, rfl, rfl, stuck_forever (Transmission.socketClass SocketHandler.sink) idleMux alone true
    (construct () fun _ => Socket.construct (Transmission.construct ()).sub)
    (addTurns ++ roundTurns) [⟨false, .act (.query 1)⟩] _ _ rfl rfl rfl⟩

/-- A thread inside `Add` gives the mutex back. -/
theorem mutex_released_iff_addTurns :
    ∃ world, PartialRun.run (Mutex.step sinkProgram) (addTurns.take 2) spawnedAlone =
        some world ∧ world.owner = some false ∧
      ((∃ more after, PartialRun.run (Mutex.step sinkProgram) more world = some after ∧
        after.owner = none) ↔ ¬Doomed true world) :=
  ⟨_, rfl, rfl, mutex_released_iff (Transmission.socketClass SocketHandler.sink) idleMux alone true
    (construct () fun _ => Socket.construct (Transmission.construct ()).sub) (addTurns.take 2) _ rfl
    false rfl⟩

end Engine
end NetworkBase
