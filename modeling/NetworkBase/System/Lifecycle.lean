import NetworkBase.Library.History
import NetworkBase.System.Thread

/-!
# The life of a worker

A worker is spawned, calls its hooks in order and leaves with `quit_ = true`.  `Start` spawns no
other before that, and `Stop` waits for it.
-/

namespace NetworkBase
namespace Thread

/-! ## What a trace shows of a worker -/

/-- The events of one worker, in order. -/
def ownEvents (id : Nat) (trace : List ThreadEvent) : List WorkerEvent :=
  trace.filterMap fun
    | .worker other event => if other = id then some event else none
    | _ => none

@[simp]
theorem ownEvents_append (id : Nat) (trace shown : List ThreadEvent) :
    ownEvents id (trace ++ shown) = ownEvents id trace ++ ownEvents id shown :=
  List.filterMap_append

@[simp]
theorem ownEvents_own (id : Nat) (shown : List WorkerEvent) :
    ownEvents id (shown.map (.worker id)) = shown := by
  rw [ownEvents, List.filterMap_map]
  exact (List.filterMap_congr fun event _ => if_pos rfl).trans List.filterMap_some

theorem ownEvents_other {id other : Nat} (differs : id ≠ other) (shown : List WorkerEvent) :
    ownEvents other (shown.map (.worker id)) = [] := by
  rw [ownEvents, List.filterMap_map, List.filterMap_eq_nil_iff]
  intro event _
  exact if_neg differs

/-- The spawning of another worker is none of its events. -/
theorem ownEvents_newest {id : Nat} (newest : Nat) (other : id ≠ newest) :
    ownEvents id [.worker newest .spawned] = [] :=
  ownEvents_other other.symm [.spawned]

/-- The hooks of a worker whose loop has called `readThread` some number of times. -/
def rounds (count : Nat) : List WorkerEvent :=
  .spawned :: .beforeThread :: List.replicate count .readThread

/-- What a worker has shown when it is at a point; a worker that was not spawned has none. -/
def Course : Option WorkerPoint → List WorkerEvent → Prop
  | none, own => own = []
  | some .before, own => own = [.spawned]
  | some .beforeFailed, own => own = rounds 0
  | some .loop, own => ∃ count, own = rounds count
  | some .read, own => ∃ count, own = rounds count
  | some .readFailed, own => ∃ count, own = rounds count
  | some .after, own => ∃ count, own = rounds count
  | some .quit, own => ∃ count, own = rounds count ++ [.afterThread]
  | some .ended, own => ∃ count, own = rounds count ++ [.afterThread, .quit]

/-- The steps of a worker while `running_` has some value. -/
inductive WorkerMove (running : Bool) : WorkerPoint → List WorkerEvent → WorkerPoint → Prop
  | begins : WorkerMove running .before [.beforeThread] .loop
  | beginsFailing : WorkerMove running .before [.beforeThread] .beforeFailed
  | refuses : WorkerMove running .beforeFailed [] .loop
  | goesOn (runs : running = true) : WorkerMove running .loop [] .read
  | leaves (halted : running = false) : WorkerMove running .loop [] .after
  | reads : WorkerMove running .read [.readThread] .loop
  | readsFailing : WorkerMove running .read [.readThread] .readFailed
  | stops : WorkerMove running .readFailed [] .loop
  | finishes : WorkerMove running .after [.afterThread] .quit
  | quits : WorkerMove running .quit [.quit] .ended

namespace WorkerMove

variable {running : Bool} {point next : WorkerPoint} {shown own : List WorkerEvent}

/-- A worker keeps to its course. -/
theorem course (move : WorkerMove running point shown next) (before : Course (some point) own) :
    Course (some next) (own ++ shown) := by
  have more (count : Nat) : rounds count ++ [.readThread] = rounds (count + 1) := by
    rw [rounds, rounds, List.cons_append, List.cons_append, ← List.replicate_succ']
  cases move with
  | begins => exact ⟨0, by rw [before]; rfl⟩
  | beginsFailing =>
      rw [before]
      rfl
  | refuses => exact ⟨0, (List.append_nil own).trans before⟩
  | goesOn | leaves | stops =>
      rw [List.append_nil]
      exact before
  | reads | readsFailing =>
      obtain ⟨count, rfl⟩ := before
      exact ⟨count + 1, more count⟩
  | finishes =>
      obtain ⟨count, rfl⟩ := before
      exact ⟨count, rfl⟩
  | quits =>
      obtain ⟨count, rfl⟩ := before
      exact ⟨count, List.append_assoc _ _ _⟩

theorem ne_ended (move : WorkerMove running point shown next) : point ≠ .ended := by
  cases move <;> decide

end WorkerMove

/-! ## What a step can do -/

variable {before after : Thread} {result : Int} {id : Nat}

/-- Only the last step of a worker changes `quit_`, and no step of a worker sets `running_`. -/
theorem workerStep_move (step : before.workerStep id result = some after) :
    ∃ point shown next, before.workers[id]? = some point ∧
      WorkerMove before.running point shown next ∧
      after.workers = before.workers.set id next ∧
      after.trace = before.trace ++ shown.map (.worker id) ∧
      after.control = before.control ∧
      (after.running = true → before.running = true) ∧
      (after.quit = true → before.quit = true ∨ next = .ended) := by
  rw [workerStep] at step
  cases found : before.workers[id]? with
  | none =>
      rw [found] at step
      cases step
  | some point =>
      rw [found] at step
      cases point with
      | before =>
          obtain rfl := Option.some.inj step
          by_cases failed : result < 0
          · exact ⟨_, _, _, rfl, .beginsFailing, by rw [if_pos failed]; rfl,
              rfl, rfl, fun set => set, .inl⟩
          · exact ⟨_, _, _, rfl, .begins, by rw [if_neg failed]; rfl,
              rfl, rfl, fun set => set, .inl⟩
      | beforeFailed =>
          obtain rfl := Option.some.inj step
          exact ⟨_, [], _, rfl, .refuses, rfl, (List.append_nil _).symm, rfl, nofun, .inl⟩
      | loop =>
          obtain rfl := Option.some.inj step
          by_cases runs : before.running = true
          · exact ⟨_, [], _, rfl, .goesOn runs, by rw [if_pos runs]; rfl,
              (List.append_nil _).symm, rfl, fun set => set, .inl⟩
          · exact ⟨_, [], _, rfl, .leaves (Bool.eq_false_iff.mpr runs),
              by rw [if_neg runs]; rfl, (List.append_nil _).symm, rfl, fun set => set, .inl⟩
      | read =>
          obtain rfl := Option.some.inj step
          by_cases failed : result < 0
          · exact ⟨_, _, _, rfl, .readsFailing, by rw [if_pos failed]; rfl,
              rfl, rfl, fun set => set, .inl⟩
          · exact ⟨_, _, _, rfl, .reads, by rw [if_neg failed]; rfl,
              rfl, rfl, fun set => set, .inl⟩
      | readFailed =>
          obtain rfl := Option.some.inj step
          exact ⟨_, [], _, rfl, .stops, rfl, (List.append_nil _).symm, rfl, nofun, .inl⟩
      | after =>
          obtain rfl := Option.some.inj step
          exact ⟨_, _, _, rfl, .finishes, rfl, rfl, rfl, fun set => set, .inl⟩
      | quit =>
          obtain rfl := Option.some.inj step
          exact ⟨_, _, _, rfl, .quits, rfl, rfl, rfl, fun set => set, fun _ => .inr rfl⟩
      | ended => cases step

/-- The points of the controlling thread between finding `quit_` set and letting go of it. -/
def Calm : ControlPoint → Prop
  | .startBefore | .startRunning | .startUnquit | .startSpawn | .stopAfter | .stopReturn => True
  | _ => False

/-- A step of the controlling thread that leaves the workers alone and does not halt them. -/
structure GoesOn (before after : Thread) : Prop where
  workers_eq : after.workers = before.workers
  quit : after.quit = true → before.quit = true
  calm : Calm after.control → Calm before.control ∨ before.quit = true
  spawning : after.control = .startSpawn → after.quit = false
  waits : before.control = .stopWait → before.quit = false →
    after.control = .stopWait ∧ after.running = before.running
  shows : after.trace = before.trace ∨ ∃ event, after.trace = before.trace ++ [event] ∧
    (∀ id own, event ≠ .worker id own) ∧ event ≠ .stopHalted ∧
    (event = .stopReturned → Calm before.control)

namespace GoesOn

variable {next : ControlPoint} {event : ThreadEvent}

theorem silently (leaves : before.control ≠ .stopWait)
    (calm : Calm next → Calm before.control ∨ before.quit = true) (spawning : next ≠ .startSpawn) :
    GoesOn before (before.goOn next) where
  workers_eq := rfl
  quit := fun set => set
  calm := calm
  spawning := fun reached => absurd reached spawning
  waits := fun waiting _ => absurd waiting leaves
  shows := Or.inl rfl

theorem showing (leaves : before.control ≠ .stopWait)
    (calm : Calm next → Calm before.control) (spawning : next ≠ .startSpawn)
    (own : ∀ id own, event ≠ .worker id own) (halts : event ≠ .stopHalted)
    (returned : event = .stopReturned → Calm before.control) :
    GoesOn before ((before.record event).goOn next) where
  workers_eq := rfl
  quit := fun set => set
  calm := fun reached => Or.inl (calm reached)
  spawning := fun reached => absurd reached spawning
  waits := fun waiting _ => absurd waiting leaves
  shows := Or.inr ⟨event, rfl, own, halts, returned⟩

end GoesOn

/-- A worker is spawned. -/
structure Spawns (before after : Thread) : Prop where
  point : before.control = .startSpawn
  workers_eq : after.workers = before.workers ++ [.before]
  trace_eq : after.trace = before.trace ++ [.worker before.workers.length .spawned]
  control_eq : after.control = .startAfter
  quit_eq : after.quit = before.quit

/-- `Stop` halts the workers. -/
structure Halts (before after : Thread) : Prop where
  workers_eq : after.workers = before.workers
  trace_eq : after.trace = before.trace ++ [.stopHalted]
  control_eq : after.control = .stopWait
  running_eq : after.running = false
  quit_eq : after.quit = before.quit

theorem controlStep_cases (step : before.controlStep result = some after) :
    GoesOn before after ∨ Spawns before after ∨ Halts before after := by
  rw [controlStep] at step
  cases point : before.control with
  | outside =>
      rw [point] at step
      cases step
  | startQuit =>
      rw [point] at step
      obtain rfl := Option.some.inj step
      refine Or.inl (.silently (by rw [point]; nofun) ?_ ?_)
      · split_ifs with idle
        · exact fun _ => Or.inr idle
        · exact False.elim
      · split_ifs <;> nofun
  | startBefore =>
      rw [point] at step
      obtain rfl := Option.some.inj step
      exact Or.inl (.showing (by rw [point]; nofun) (fun _ => by rw [point]; trivial)
        (by split_ifs <;> nofun) nofun nofun nofun)
  | startRunning =>
      rw [point] at step
      obtain rfl := Option.some.inj step
      exact Or.inl ⟨rfl, fun set => set, fun _ => Or.inl (by rw [point]; trivial), nofun,
        by rw [point]; nofun, Or.inl rfl⟩
  | startUnquit =>
      rw [point] at step
      obtain rfl := Option.some.inj step
      exact Or.inl ⟨rfl, nofun, fun _ => Or.inl (by rw [point]; trivial), fun _ => rfl,
        by rw [point]; nofun, Or.inl rfl⟩
  | startSpawn =>
      rw [point] at step
      obtain rfl := Option.some.inj step
      exact Or.inr (Or.inl ⟨point, rfl, rfl, rfl, rfl⟩)
  | startAfter =>
      rw [point] at step
      obtain rfl := Option.some.inj step
      exact Or.inl (.showing (by rw [point]; nofun) (by split_ifs <;> exact False.elim)
        (by split_ifs <;> nofun) nofun nofun nofun)
  | startHalt =>
      rw [point] at step
      obtain rfl := Option.some.inj step
      exact Or.inl ⟨rfl, fun set => set, False.elim, nofun, by rw [point]; nofun, Or.inl rfl⟩
  | startReturn value =>
      rw [point] at step
      obtain rfl := Option.some.inj step
      exact Or.inl (.showing (by rw [point]; nofun) False.elim nofun nofun nofun nofun)
  | stopQuit =>
      rw [point] at step
      obtain rfl := Option.some.inj step
      refine Or.inl (.silently (by rw [point]; nofun) ?_ ?_)
      · split_ifs with idle
        · exact fun _ => Or.inr idle
        · exact False.elim
      · split_ifs <;> nofun
  | stopBefore =>
      rw [point] at step
      obtain rfl := Option.some.inj step
      exact Or.inl (.showing (by rw [point]; nofun) False.elim nofun nofun nofun nofun)
  | stopHalt =>
      rw [point] at step
      obtain rfl := Option.some.inj step
      exact Or.inr (Or.inr ⟨rfl, rfl, rfl, rfl, rfl⟩)
  | stopWait =>
      rw [point] at step
      obtain rfl := Option.some.inj step
      refine Or.inl ⟨rfl, fun set => set, ?_, ?_, fun _ runs => ?_, Or.inl rfl⟩
      · rw [goOn]
        split_ifs with idle
        · exact fun _ => Or.inr idle
        · exact False.elim
      · rw [goOn]
        split_ifs <;> nofun
      · exact ⟨if_pos (by rw [runs]; nofun), rfl⟩
  | stopAfter =>
      rw [point] at step
      obtain rfl := Option.some.inj step
      exact Or.inl (.showing (by rw [point]; nofun) (fun _ => by rw [point]; trivial) nofun nofun
        nofun nofun)
  | stopReturn =>
      rw [point] at step
      obtain rfl := Option.some.inj step
      exact Or.inl (.showing (by rw [point]; nofun) False.elim nofun nofun nofun
        (fun _ => by rw [point]; trivial))

/-- What may happen next. -/
theorem step_cases {turn : Turn} (happens : step turn before = some after) :
    GoesOn before after ∨ Spawns before after ∨ Halts before after ∨
      ∃ id result, before.workerStep id result = some after := by
  cases turn with
  | start =>
      rw [step] at happens
      split_ifs at happens with point
      obtain rfl := Option.some.inj happens
      exact Or.inl (.silently (by rw [point]; nofun) False.elim nofun)
  | stop =>
      rw [step] at happens
      split_ifs at happens with point
      obtain rfl := Option.some.inj happens
      exact Or.inl (.silently (by rw [point]; nofun) False.elim nofun)
  | control result =>
      rcases controlStep_cases happens with goes | spawns | halts
      · exact Or.inl goes
      · exact Or.inr (Or.inl spawns)
      · exact Or.inr (Or.inr (Or.inl halts))
  | worker id result => exact Or.inr (Or.inr (Or.inr ⟨id, result, happens⟩))

/-! ## One worker at a time -/

/-- A worker is between its beginning and its end. -/
def Live (thread : Thread) (id : Nat) : Prop := ∃ point ≠ .ended, thread.workers[id]? = some point

theorem live_of_workers_eq (workers_eq : after.workers = before.workers) :
    after.Live id → before.Live id := by
  rw [Live, Live, workers_eq]
  exact fun alive => alive

theorem live_of_workerStep (step : before.workerStep id result = some after) : before.Live id := by
  obtain ⟨point, _, _, found, move, -⟩ := workerStep_move step
  exact ⟨point, move.ne_ended, found⟩

theorem live_before_workerStep {other : Nat} (step : before.workerStep id result = some after)
    (alive : after.Live other) : before.Live other := by
  by_cases same : id = other
  · exact same ▸ live_of_workerStep step
  · obtain ⟨_, _, next, -, -, workers_eq, -⟩ := workerStep_move step
    obtain ⟨point, unfinished, found⟩ := alive
    rw [workers_eq, List.getElem?_set_ne same] at found
    exact ⟨point, unfinished, found⟩

/-- There is one worker at most, and none while `quit_` is set or the controlling thread relies on
that. -/
structure Sound (thread : Thread) : Prop where
  single : ∀ id other, thread.Live id → thread.Live other → id = other
  idle : thread.quit = true → ∀ id, ¬thread.Live id
  calm : Calm thread.control → ∀ id, ¬thread.Live id
  spawning : thread.control = .startSpawn → thread.quit = false

namespace Sound

theorem construct : construct.Sound where
  single := fun _ _ ⟨_, _, found⟩ => nomatch found
  idle := fun _ _ ⟨_, _, found⟩ => nomatch found
  calm := False.elim
  spawning := nofun

theorem goesOn (sound : before.Sound) (goes : GoesOn before after) : after.Sound where
  single := fun id other alive more => sound.single id other
    (live_of_workers_eq goes.workers_eq alive) (live_of_workers_eq goes.workers_eq more)
  idle := fun set id alive =>
    sound.idle (goes.quit set) id (live_of_workers_eq goes.workers_eq alive)
  calm := by
    intro reached id alive
    have alive := live_of_workers_eq goes.workers_eq alive
    rcases goes.calm reached with calm | set
    · exact sound.calm calm id alive
    · exact sound.idle set id alive
  spawning := goes.spawning

theorem spawns (sound : before.Sound) (spawns : Spawns before after) : after.Sound := by
  have calm : Calm before.control := by
    rw [spawns.point]
    trivial
  have newest (id : Nat) (alive : after.Live id) : id = before.workers.length := by
    obtain ⟨point, unfinished, found⟩ := alive
    rw [spawns.workers_eq, List.getElem?_append] at found
    split_ifs at found with old
    · exact absurd ⟨point, unfinished, found⟩ (sound.calm calm id)
    · have := (List.getElem?_eq_some_iff.mp found).1
      rw [List.length_singleton] at this
      omega
  constructor
  · intro id other alive more
    rw [newest id alive, newest other more]
  · intro set
    rw [spawns.quit_eq, sound.spawning spawns.point] at set
    cases set
  · intro reached
    rw [spawns.control_eq] at reached
    exact reached.elim
  · intro reached
    rw [spawns.control_eq] at reached
    cases reached

theorem halts (sound : before.Sound) (halts : Halts before after) : after.Sound where
  single := fun id other alive more => sound.single id other
    (live_of_workers_eq halts.workers_eq alive) (live_of_workers_eq halts.workers_eq more)
  idle := fun set id alive =>
    sound.idle (halts.quit_eq ▸ set) id (live_of_workers_eq halts.workers_eq alive)
  calm := by
    rw [halts.control_eq]
    exact False.elim
  spawning := by
    rw [halts.control_eq]
    exact nofun

theorem workerStep (sound : before.Sound) (step : before.workerStep id result = some after) :
    after.Sound := by
  have alive := live_of_workerStep step
  have earlier (other : Nat) : after.Live other → before.Live other :=
    live_before_workerStep step
  obtain ⟨_, _, next, found, -, workers_eq, -, control_eq, -, quit⟩ := workerStep_move step
  constructor
  · exact fun first second here there =>
      sound.single first second (earlier first here) (earlier second there)
  · intro set other there
    rcases quit set with idle | rfl
    · exact sound.idle idle id alive
    · -- The only worker has ended.
      obtain rfl := sound.single id other alive (earlier other there)
      obtain ⟨point, unfinished, ended⟩ := there
      have inside := (List.getElem?_eq_some_iff.mp found).1
      rw [workers_eq, List.getElem?_set_self inside] at ended
      exact unfinished (Option.some.inj ended).symm
  · rw [control_eq]
    exact fun calm other there => sound.calm calm other (earlier other there)
  · rw [control_eq]
    intro point
    exact absurd alive (sound.calm (by rw [point]; trivial) id)

theorem step {turn : Turn} (sound : before.Sound) (happens : step turn before = some after) :
    after.Sound := by
  rcases step_cases happens with goes | spawned | halted | ⟨id, result, works⟩
  · exact sound.goesOn goes
  · exact sound.spawns spawned
  · exact sound.halts halted
  · exact sound.workerStep works

end Sound

/-! ## The course of every worker -/

/-- Every worker has shown what its point says. -/
def OnCourse (thread : Thread) : Prop :=
  ∀ id, Course thread.workers[id]? (ownEvents id thread.trace)

theorem ownEvents_silent {event : ThreadEvent} (silent : ∀ id own, event ≠ .worker id own)
    (id : Nat) : ownEvents id [event] = [] := by
  cases event with
  | worker other own => exact absurd rfl (silent other own)
  | _ => rfl

theorem GoesOn.shown (goes : GoesOn before after) :
    ∃ shown, after.trace = before.trace ++ shown ∧ ∀ id, ownEvents id shown = [] := by
  rcases goes.shows with same | ⟨event, trace_eq, silent, -⟩
  · exact ⟨[], same.trans (List.append_nil _).symm, fun _ => rfl⟩
  · exact ⟨[event], trace_eq, ownEvents_silent silent⟩

namespace OnCourse

theorem of_silent {shown : List ThreadEvent} (course : before.OnCourse)
    (workers_eq : after.workers = before.workers) (trace_eq : after.trace = before.trace ++ shown)
    (silent : ∀ id, ownEvents id shown = []) : after.OnCourse := by
  intro id
  rw [workers_eq, trace_eq, ownEvents_append, silent, List.append_nil]
  exact course id

theorem spawns (course : before.OnCourse) (spawns : Spawns before after) : after.OnCourse := by
  intro id
  rw [spawns.workers_eq, spawns.trace_eq, ownEvents_append]
  by_cases same : before.workers.length = id
  · subst same
    have unknown := course before.workers.length
    rw [List.getElem?_eq_none (Nat.le_refl _)] at unknown
    have own : ownEvents before.workers.length [.worker before.workers.length .spawned] =
        [.spawned] := ownEvents_own before.workers.length [.spawned]
    rw [List.getElem?_concat_length, own, show ownEvents _ before.trace = [] from unknown]
    rfl
  · rw [ownEvents_newest _ (Ne.symm same), List.append_nil]
    rcases Nat.lt_or_gt_of_ne same with beyond | old
    · rw [List.getElem?_eq_none (by rw [List.length_append]; exact beyond)]
      have unknown := course id
      rw [List.getElem?_eq_none (Nat.le_of_lt beyond)] at unknown
      exact unknown
    · rw [List.getElem?_append_left old]
      exact course id

theorem workerStep (course : before.OnCourse) (step : before.workerStep id result = some after) :
    after.OnCourse := by
  obtain ⟨point, shown, next, found, move, workers_eq, trace_eq, -⟩ := workerStep_move step
  intro other
  rw [workers_eq, trace_eq, ownEvents_append]
  by_cases same : id = other
  · subst same
    rw [List.getElem?_set_self (List.getElem?_eq_some_iff.mp found).1, ownEvents_own]
    exact move.course (found ▸ course id)
  · rw [List.getElem?_set_ne same, ownEvents_other same, List.append_nil]
    exact course other

theorem step {turn : Turn} (course : before.OnCourse) (happens : step turn before = some after) :
    after.OnCourse := by
  rcases step_cases happens with goes | spawned | halted | ⟨id, result, works⟩
  · obtain ⟨shown, trace_eq, silent⟩ := goes.shown
    exact course.of_silent goes.workers_eq trace_eq silent
  · exact course.spawns spawned
  · exact course.of_silent halted.workers_eq halted.trace_eq (fun _ => rfl)
  · exact course.workerStep works

/-- A worker that was spawned and has not quit is alive. -/
theorem live {thread : Thread} (course : thread.OnCourse)
    (spawned : .spawned ∈ ownEvents id thread.trace)
    (unfinished : .quit ∉ ownEvents id thread.trace) : thread.Live id := by
  have own := course id
  cases found : thread.workers[id]? with
  | none =>
      rw [found] at own
      rw [show ownEvents id thread.trace = [] from own] at spawned
      cases spawned
  | some point =>
      refine ⟨point, ?_, found⟩
      rintro rfl
      rw [found] at own
      obtain ⟨count, own⟩ := own
      rw [own] at unfinished
      exact unfinished (by simp)

/-- A worker that has quit has shown its whole course. -/
theorem whole {thread : Thread} (course : thread.OnCourse)
    (finished : .quit ∈ ownEvents id thread.trace) :
    thread.workers[id]? = some .ended ∧
      ∃ count, ownEvents id thread.trace = rounds count ++ [.afterThread, .quit] := by
  have unfinished (count : Nat) : WorkerEvent.quit ∉ rounds count := by
    simp [rounds, List.mem_replicate]
  have own := course id
  cases found : thread.workers[id]? with
  | none =>
      rw [found] at own
      rw [show ownEvents id thread.trace = [] from own] at finished
      cases finished
  | some point =>
      rw [found] at own
      cases point with
      | ended => exact ⟨rfl, own⟩
      | before =>
          rw [show ownEvents id thread.trace = _ from own] at finished
          exact absurd finished (by decide)
      | beforeFailed =>
          rw [show ownEvents id thread.trace = _ from own] at finished
          exact absurd finished (unfinished 0)
      | loop | read | readFailed | after =>
          obtain ⟨count, own⟩ := own
          rw [own] at finished
          exact absurd finished (unfinished count)
      | quit =>
          obtain ⟨count, own⟩ := own
          rw [own, List.mem_append, List.mem_singleton] at finished
          rcases finished with early | last
          · exact absurd early (unfinished count)
          · cases last

end OnCourse

/-- A worker that has shown anything is in the list, so a new one is another. -/
theorem OnCourse.ne_newest {thread : Thread} {own : WorkerEvent} (course : thread.OnCourse)
    (shown : own ∈ ownEvents id thread.trace) : id ≠ thread.workers.length := by
  rintro rfl
  have unknown := course thread.workers.length
  rw [List.getElem?_eq_none (Nat.le_refl _)] at unknown
  rw [show ownEvents _ thread.trace = [] from unknown] at shown
  cases shown

/-! ## After the flag is cleared -/

/-- The calls of `readThread` that a worker begins without looking at `running_` again. -/
def pending : Option WorkerPoint → Nat
  | some .read => 1
  | _ => 0

theorem pending_le (point : Option WorkerPoint) : pending point ≤ 1 := by
  rw [pending.eq_def]
  split <;> decide

/-- While `running_` is clear a step of a worker begins only what was pending. -/
theorem WorkerMove.count_le {point next : WorkerPoint} {shown : List WorkerEvent}
    (move : WorkerMove false point shown next) :
    shown.count .readThread + pending (some next) ≤ pending (some point) := by
  cases move with
  | goesOn runs => cases runs
  | _ => decide

/-- Since `Stop` cleared the flag, the workers spawned before begin one `readThread` at most, and
`Stop` waits for those that are left. -/
def Halted (thread : Thread) : Prop :=
  ∀ earlier later, thread.trace = earlier ++ .stopHalted :: later →
    ∀ id, .spawned ∈ ownEvents id earlier →
      (ownEvents id later).count .readThread + pending thread.workers[id]? ≤ 1 ∧
        (thread.Live id → thread.running = false ∧ thread.control = .stopWait)

namespace Halted

theorem goesOn (halted : before.Halted) (sound : before.Sound) (goes : GoesOn before after) :
    after.Halted := by
  have flag (id : Nat) (waiting : before.Live id → before.running = false ∧
      before.control = .stopWait) (alive : after.Live id) :
      after.running = false ∧ after.control = .stopWait := by
    have alive := live_of_workers_eq goes.workers_eq alive
    obtain ⟨clear, point⟩ := waiting alive
    have unset : before.quit = false :=
      Bool.eq_false_iff.mpr fun set => sound.idle set id alive
    obtain ⟨stays, same⟩ := goes.waits point unset
    exact ⟨same.trans clear, stays⟩
  intro earlier later trace_eq id spawned
  obtain ⟨between, later_eq, old⟩ :
      ∃ between, ownEvents id later = ownEvents id between ∧
        before.trace = earlier ++ .stopHalted :: between := by
    rcases goes.shows with same | ⟨event, grown_eq, silent, other, -⟩
    · exact ⟨later, rfl, same.symm.trans trace_eq⟩
    · obtain ⟨between, rfl, old⟩ := History.split_append (grown_eq.symm.trans trace_eq)
        (List.mem_singleton.not.mpr other.symm)
      exact ⟨between, by rw [ownEvents_append, ownEvents_silent silent, List.append_nil], old⟩
  obtain ⟨few, waiting⟩ := halted earlier between old id spawned
  rw [goes.workers_eq, later_eq]
  exact ⟨few, flag id waiting⟩

theorem spawns (halted : before.Halted) (course : before.OnCourse) (spawns : Spawns before after) :
    after.Halted := by
  intro earlier later trace_eq id spawned
  obtain ⟨between, rfl, old⟩ := History.split_append (spawns.trace_eq.symm.trans trace_eq)
    (List.mem_singleton.not.mpr nofun)
  obtain ⟨few, waiting⟩ := halted earlier between old id spawned
  have not_newest : id ≠ before.workers.length := by
    have present : .spawned ∈ ownEvents id before.trace := by
      rw [old, ownEvents_append]
      exact List.mem_append_left _ spawned
    exact course.ne_newest present
  have same : after.workers[id]? = before.workers[id]? := by
    rw [spawns.workers_eq]
    rcases Nat.lt_or_gt_of_ne not_newest with inside | beyond
    · exact List.getElem?_append_left inside
    · rw [List.getElem?_eq_none (by rw [List.length_append]; exact beyond),
        List.getElem?_eq_none (Nat.le_of_lt beyond)]
  rw [same, ownEvents_append, ownEvents_newest _ not_newest, List.append_nil]
  refine ⟨few, ?_⟩
  rintro ⟨point, unfinished, found⟩
  obtain ⟨-, waits⟩ := waiting ⟨point, unfinished, same ▸ found⟩
  rw [spawns.point] at waits
  cases waits

theorem halts (halted : before.Halted) (halts : Halts before after) : after.Halted := by
  intro earlier later trace_eq id spawned
  rw [halts.workers_eq, halts.control_eq, halts.running_eq]
  refine ⟨?_, fun _ => ⟨rfl, rfl⟩⟩
  rcases History.split_concat (halts.trace_eq.symm.trans trace_eq) with
    ⟨rfl, -⟩ | ⟨between, rfl, old⟩
  · rw [show (ownEvents id []).count .readThread = 0 from rfl, Nat.zero_add]
    exact pending_le before.workers[id]?
  · rw [ownEvents_append, show ownEvents id [.stopHalted] = [] from rfl, List.append_nil]
    exact (halted earlier between old id spawned).1

theorem workerStep (halted : before.Halted) (step : before.workerStep id result = some after) :
    after.Halted := by
  have alive := live_of_workerStep step
  have earlier_live (other : Nat) : after.Live other → before.Live other :=
    live_before_workerStep step
  obtain ⟨point, shown, next, found, move, workers_eq, trace_eq, control_eq, running, -⟩ :=
    workerStep_move step
  have absent : .stopHalted ∉ shown.map (ThreadEvent.worker id) := by
    simp
  intro earlier later grown_eq other spawned
  obtain ⟨between, rfl, old⟩ := History.split_append (trace_eq.symm.trans grown_eq) absent
  obtain ⟨few, waiting⟩ := halted earlier between old other spawned
  constructor
  · rw [workers_eq, ownEvents_append]
    by_cases same : id = other
    · subst same
      rw [(waiting alive).1] at move
      have := move.count_le
      rw [List.getElem?_set_self (List.getElem?_eq_some_iff.mp found).1, ownEvents_own,
        List.count_append]
      rw [found] at few
      omega
    · rw [List.getElem?_set_ne same, ownEvents_other same, List.append_nil]
      exact few
  · intro there
    obtain ⟨clear, waits⟩ := waiting (earlier_live other there)
    refine ⟨Bool.eq_false_iff.mpr fun set => ?_, control_eq.trans waits⟩
    rw [running set] at clear
    cases clear

end Halted

/-! ## After `Stop` returned -/

/-- When `Stop` returned, the workers spawned before had quit, and show nothing since. -/
def Returned (thread : Thread) : Prop :=
  ∀ earlier later, thread.trace = earlier ++ .stopReturned :: later →
    ∀ id, .spawned ∈ ownEvents id earlier →
      .quit ∈ ownEvents id earlier ∧ ownEvents id later = []

namespace Returned

theorem goesOn (returned : before.Returned) (sound : before.Sound) (course : before.OnCourse)
    (goes : GoesOn before after) : after.Returned := by
  intro earlier later trace_eq id spawned
  rcases goes.shows with same | ⟨event, grown_eq, silent, -, calm⟩
  · exact returned earlier later (same.symm.trans trace_eq) id spawned
  · rcases History.split_concat (grown_eq.symm.trans trace_eq) with
      ⟨rfl, rfl, rfl⟩ | ⟨between, rfl, old⟩
    · refine ⟨?_, rfl⟩
      by_contra unfinished
      exact sound.calm (calm rfl) id (course.live spawned unfinished)
    · rw [ownEvents_append, ownEvents_silent silent, List.append_nil]
      exact returned earlier between old id spawned

theorem spawns (returned : before.Returned) (course : before.OnCourse)
    (spawns : Spawns before after) : after.Returned := by
  intro earlier later trace_eq id spawned
  obtain ⟨between, rfl, old⟩ := History.split_append (spawns.trace_eq.symm.trans trace_eq)
    (List.mem_singleton.not.mpr nofun)
  have not_newest : id ≠ before.workers.length := by
    have present : .spawned ∈ ownEvents id before.trace := by
      rw [old, ownEvents_append]
      exact List.mem_append_left _ spawned
    exact course.ne_newest present
  rw [ownEvents_append, ownEvents_newest _ not_newest, List.append_nil]
  exact returned earlier between old id spawned

theorem halts (returned : before.Returned) (halts : Halts before after) : after.Returned := by
  intro earlier later trace_eq id spawned
  obtain ⟨between, rfl, old⟩ := History.split_append (halts.trace_eq.symm.trans trace_eq)
    (List.mem_singleton.not.mpr nofun)
  rw [ownEvents_append, show ownEvents id [.stopHalted] = [] from rfl, List.append_nil]
  exact returned earlier between old id spawned

theorem workerStep (returned : before.Returned) (course : before.OnCourse)
    (step : before.workerStep id result = some after) : after.Returned := by
  obtain ⟨point, shown, next, found, move, -, trace_eq, -⟩ := workerStep_move step
  intro earlier later grown_eq other spawned
  obtain ⟨between, rfl, old⟩ := History.split_append (trace_eq.symm.trans grown_eq) (by simp)
  obtain ⟨finished, nothing⟩ := returned earlier between old other spawned
  refine ⟨finished, ?_⟩
  by_cases same : id = other
  · subst same
    have ended : before.workers[id]? = some .ended := by
      refine (course.whole ?_).1
      rw [old, ownEvents_append]
      exact List.mem_append_left _ finished
    rw [found] at ended
    exact absurd (Option.some.inj ended) move.ne_ended
  · rw [ownEvents_append, nothing, ownEvents_other same, List.append_nil]

end Returned

/-! ## Every run -/

/-- What `Start` and `Stop` promise about the workers, read off what happened. -/
structure Lifecycle (trace : List ThreadEvent) : Prop where
  /-- Two workers are never between their beginning and `quit_ = true`. -/
  alone : ∀ id other, .spawned ∈ ownEvents id trace → .quit ∉ ownEvents id trace →
    .spawned ∈ ownEvents other trace → .quit ∉ ownEvents other trace → id = other
  /-- A worker calls `afterThread` once before it sets `quit_`, and does nothing afterwards. -/
  finishes : ∀ id earlier later, ownEvents id trace = earlier ++ .quit :: later →
    earlier.count .afterThread = 1 ∧ later = []
  /-- No worker calls `afterThread` twice. -/
  once : ∀ id, (ownEvents id trace).count .afterThread ≤ 1
  /-- A worker calls `beforeThread` first, and nothing but `quit_ = true` follows `afterThread`. -/
  course : ∀ id, ∃ count, ownEvents id trace <+: rounds count ++ [.afterThread, .quit]
  /-- When `Stop` returns, the workers have quit and make no call any more. -/
  returned : ∀ earlier later, trace = earlier ++ .stopReturned :: later →
    ∀ id, .spawned ∈ ownEvents id earlier →
      .quit ∈ ownEvents id earlier ∧ ownEvents id later = []
  /-- After `Stop` cleared `running_`, a worker begins one more `readThread` at most. -/
  halted : ∀ earlier later, trace = earlier ++ .stopHalted :: later →
    ∀ id, .spawned ∈ ownEvents id earlier → (ownEvents id later).count .readThread ≤ 1

theorem count_rounds (count : Nat) : (rounds count).count .afterThread = 0 := by
  simp [rounds, List.count_replicate]

/-- A course is the beginning of a whole one. -/
theorem Course.begins_rounds {point : Option WorkerPoint} {own : List WorkerEvent}
    (course : Course point own) : ∃ count, own <+: rounds count ++ [.afterThread, .quit] := by
  cases point with
  | none =>
      rw [show own = [] from course]
      exact ⟨0, List.nil_prefix⟩
  | some point =>
      cases point with
      | before =>
          rw [show own = [.spawned] from course]
          exact ⟨0, by decide⟩
      | beforeFailed =>
          rw [show own = rounds 0 from course]
          exact ⟨0, List.prefix_append _ _⟩
      | loop | read | readFailed | after =>
          obtain ⟨count, rfl⟩ := course
          exact ⟨count, List.prefix_append _ _⟩
      | quit =>
          obtain ⟨count, rfl⟩ := course
          exact ⟨count, [.quit], List.append_assoc _ _ _⟩
      | ended =>
          obtain ⟨count, rfl⟩ := course
          exact ⟨count, List.prefix_rfl⟩

theorem lifecycle_of_invariants {thread : Thread} (sound : thread.Sound)
    (course : thread.OnCourse) (halted : thread.Halted) (returned : thread.Returned) :
    Lifecycle thread.trace where
  alone := fun id other begun unfinished there unfinished_there =>
    sound.single id other (course.live begun unfinished) (course.live there unfinished_there)
  finishes := by
    intro id earlier later own
    have finished : .quit ∈ ownEvents id thread.trace := by
      rw [own]
      exact List.mem_append_right _ List.mem_cons_self
    obtain ⟨-, count, whole⟩ := course.whole finished
    have same : (rounds count ++ [.afterThread]) ++ [.quit] = earlier ++ .quit :: later := by
      rw [← own, whole, List.append_assoc, List.singleton_append]
    rcases History.split_concat same with ⟨rfl, rfl, -⟩ | ⟨between, -, early⟩
    · exact ⟨by rw [List.count_append, count_rounds]; rfl, rfl⟩
    · have mem : WorkerEvent.quit ∈ rounds count ++ [.afterThread] := by
        rw [early]
        exact List.mem_append_right _ List.mem_cons_self
      simp [rounds, List.mem_replicate] at mem
  once := by
    intro id
    obtain ⟨count, begins⟩ := (course id).begins_rounds
    have few := begins.sublist.count_le WorkerEvent.afterThread
    rw [List.count_append, count_rounds] at few
    exact few
  course := fun id => (course id).begins_rounds
  returned := returned
  halted := by
    intro earlier later trace_eq id spawned
    have := (halted earlier later trace_eq id spawned).1
    omega

/-- Whatever the threads do, and in whatever order, the workers keep to their lifecycle. -/
theorem lifecycle (turns : List Turn) (thread : Thread)
    (execution : PartialRun.run step turns construct = some thread) :
    Lifecycle thread.trace := by
  obtain ⟨sound, course, halted, returned⟩ :
      thread.Sound ∧ thread.OnCourse ∧ thread.Halted ∧ thread.Returned := by
    refine PartialRun.invariant
      (fun thread => thread.Sound ∧ thread.OnCourse ∧ thread.Halted ∧ thread.Returned) ?_ execution
      ⟨Sound.construct, fun _ => rfl, ?_, ?_⟩
    · rintro turn before after ⟨sound, course, halted, returned⟩ happens
      refine ⟨sound.step happens, course.step happens, ?_⟩
      rcases step_cases happens with goes | spawns | halts | ⟨id, result, works⟩
      · exact ⟨halted.goesOn sound goes, returned.goesOn sound course goes⟩
      · exact ⟨halted.spawns course spawns, returned.spawns course spawns⟩
      · exact ⟨halted.halts halts, returned.halts halts⟩
      · exact ⟨halted.workerStep works, returned.workerStep course works⟩
    · intro earlier later trace_eq
      exact absurd trace_eq.symm (List.append_ne_nil_of_right_ne_nil _ (List.cons_ne_nil _ _))
    · intro earlier later trace_eq
      exact absurd trace_eq.symm (List.append_ne_nil_of_right_ne_nil _ (List.cons_ne_nil _ _))
  exact lifecycle_of_invariants sound course halted returned

/-- `Start`, one call of `readThread`, and `Stop`. -/
def startStop : List Turn :=
  .start :: List.replicate 7 (.control 0) ++ List.replicate 3 (.worker 0 0) ++
    .stop :: List.replicate 4 (.control 0) ++ List.replicate 3 (.worker 0 0) ++
    List.replicate 3 (.control 0)

/-- What it leaves. -/
def stopped : Thread := (PartialRun.run step startStop construct).getD construct

theorem lifecycle_startStop :
    PartialRun.run step startStop construct = some stopped ∧
      stopped.trace.getLast? = some .stopReturned ∧ Lifecycle stopped.trace :=
  ⟨rfl, by decide, lifecycle startStop stopped rfl⟩

end Thread
end NetworkBase
