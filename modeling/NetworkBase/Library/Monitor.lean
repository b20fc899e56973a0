import NetworkBase.Library.Atomic

/-!
# Methods behind one mutex

A class whose methods lock one mutex, work on the fields statement by statement and unlock it again
is a monitor.  Any number of threads call it, and their statements interleave in any order; the
statements between the lock and the unlock may leave the fields in any state.

A monitor whose critical sections, run without interruption, answer like an atomic object is refined
by it: every interleaving of the statements shows its threads a behaviour of the atomic object.  The
section that holds the mutex can always go on, so no interleaving runs into a statement that is
undefined, and the mutex is always given back.
-/

/-- A class of methods: `ι` are the calls, `ρ` the answers, `σ` the fields and `κ` the places
between two statements of a critical section, with the local variables that are alive there. -/
structure Monitor (σ ι ρ κ : Type*) where
  /-- What a call does before it locks the mutex: it answers without, or its section begins. -/
  enter : ι → ρ ⊕ κ
  /-- One statement of a section, which goes on or comes to the unlock with an answer. -/
  statement : κ → σ → Option ((κ ⊕ ρ) × σ)

namespace Monitor

variable {σ ι ρ κ θ α : Type*}

/-- A thread at a monitor. -/
inductive Phase (ι ρ κ : Type*)
  | idle
  /-- In front of the lock; its section would begin at this place. -/
  | waiting (call : ι) (place : κ)
  /-- Inside its section. -/
  | inside (call : ι) (place : κ)
  /-- In front of the unlock. -/
  | leaving (answer : ρ)
  /-- Without the mutex, on the way to its return. -/
  | returning (answer : ρ)

/-- The thread has locked the mutex and not unlocked it yet. -/
def Phase.holds : Phase ι ρ κ → Bool
  | .inside _ _ => true
  | .leaving _ => true
  | _ => false

/-- The fields, the thread the mutex belongs to, and the threads. -/
structure World (σ ι ρ κ θ : Type*) where
  shared : σ
  owner : Option θ
  phase : θ → Phase ι ρ κ

/-- One move of a thread. -/
inductive Event (ι ρ θ : Type*)
  | invoked (thread : θ) (call : ι)
  | lock (thread : θ)
  /-- The next statement of the section. -/
  | advance (thread : θ)
  | unlock (thread : θ)
  | returned (thread : θ) (answer : ρ)

/-- What is seen of a move at a monitor. -/
def Event.seen : Event ι ρ θ → Option (Atomic.Observation ι ρ θ)
  | .invoked thread call => some (.invoked thread call)
  | .returned thread answer => some (.returned thread answer)
  | _ => none

/-- Where a call goes from before the lock. -/
def entrance (monitor : Monitor σ ι ρ κ) (call : ι) : Phase ι ρ κ :=
  match monitor.enter call with
  | .inl answer => .returning answer
  | .inr place => .waiting call place

/-- Where a section goes after a statement. -/
def exit (call : ι) : κ ⊕ ρ → Phase ι ρ κ
  | .inl place => .inside call place
  | .inr answer => .leaving answer

/-- One move, where the thread is at the place for it.  Only the lock looks at whom the mutex
belongs to. -/
def step [DecidableEq θ] [DecidableEq ρ] (monitor : Monitor σ ι ρ κ) :
    Event ι ρ θ → World σ ι ρ κ θ → Option (World σ ι ρ κ θ)
  | .invoked thread call, world =>
      match world.phase thread with
      | .idle => some
          { world with phase := Function.update world.phase thread (monitor.entrance call) }
      | _ => none
  | .lock thread, world =>
      match world.phase thread, world.owner with
      | .waiting call place, none => some
          { world with
            owner := some thread
            phase := Function.update world.phase thread (.inside call place) }
      | _, _ => none
  | .advance thread, world =>
      match world.phase thread with
      | .inside call place =>
          (monitor.statement place world.shared).map fun (next, shared) =>
            { world with
              shared
              phase := Function.update world.phase thread (exit call next) }
      | _ => none
  | .unlock thread, world =>
      match world.phase thread with
      | .leaving answer => some
          { world with
            owner := none
            phase := Function.update world.phase thread (.returning answer) }
      | _ => none
  | .returned thread answer, world =>
      match world.phase thread with
      | .returning found =>
          if found = answer then
            some { world with phase := Function.update world.phase thread .idle }
          else
            none
      | _ => none

/-- No thread has called the monitor yet. -/
def World.start (shared : σ) : World σ ι ρ κ θ where
  shared
  owner := none
  phase _ := .idle

/-! ## A section without interruption -/

/-- A section in this place, run without interruption, comes to the unlock with this answer and
these fields. -/
inductive Finishes (monitor : Monitor σ ι ρ κ) : κ ⊕ ρ → σ → ρ → σ → Prop
  | unlock (answer : ρ) (shared : σ) : Finishes monitor (.inr answer) shared answer shared
  | advance {place : κ} {before middle after : σ} {next : κ ⊕ ρ} {answer : ρ}
      (statement : monitor.statement place before = some (next, middle))
      (rest : Finishes monitor next middle answer after) :
      Finishes monitor (.inl place) before answer after

theorem finishes_inr_iff {monitor : Monitor σ ι ρ κ} {found answer : ρ} {before after : σ} :
    monitor.Finishes (.inr found) before answer after ↔ found = answer ∧ before = after := by
  constructor
  · rintro ⟨⟩
    exact ⟨rfl, rfl⟩
  · rintro ⟨rfl, rfl⟩
    exact .unlock found before

/-- A section goes on from where its next statement leads. -/
theorem finishes_inl_iff {monitor : Monitor σ ι ρ κ} {place : κ} {answer : ρ} {before after : σ} :
    monitor.Finishes (.inl place) before answer after ↔
      ∃ next, monitor.statement place before = some next ∧
        monitor.Finishes next.1 next.2 answer after := by
  constructor
  · rintro ⟨⟩
    rename_i middle next statement rest
    exact ⟨(next, middle), statement, rest⟩
  · rintro ⟨next, statement, rest⟩
    exact .advance statement rest

/-- A section that goes on from a statement. -/
theorem finishes_of_statement {monitor : Monitor σ ι ρ κ} {place : κ} {answer : ρ}
    {before after : σ} {next : (κ ⊕ ρ) × σ}
    (statement : monitor.statement place before = some next) :
    monitor.Finishes (.inl place) before answer after ↔
      monitor.Finishes next.1 next.2 answer after := by
  rw [finishes_inl_iff]
  constructor
  · rintro ⟨found, found_eq, rest⟩
    obtain rfl := Option.some.inj (statement.symm.trans found_eq)
    exact rest
  · exact fun rest => ⟨next, statement, rest⟩

/-- The calls of the monitor, each run without interruption, answer like the object: the fields
`represent` its value before and after. -/
structure Implements (monitor : Monitor σ ι ρ κ) (object : Atomic α ι ρ)
    (represents : σ → α → Prop) : Prop where
  /-- An answer without the mutex. -/
  direct : ∀ {call : ι} {answer : ρ}, monitor.enter call = .inl answer →
    ∀ value, object.perform call value = (answer, value)
  /-- An answer from a section. -/
  finished : ∀ {call : ι} {place : κ} {before after : σ} {value : α} {answer : ρ},
    monitor.enter call = .inr place → represents before value →
      monitor.Finishes (.inl place) before answer after →
        answer = (object.perform call value).1 ∧ represents after (object.perform call value).2

/-! ## The object that a monitor refines -/

/-- What the threads know of a thread of the monitor: whether its call has taken effect. -/
def Phase.stage : Phase ι ρ κ → Atomic.Stage ι ρ
  | .idle => .idle
  | .waiting call _ => .called call
  | .inside call _ => .called call
  | .leaving answer => .answered answer
  | .returning answer => .answered answer

variable {monitor : Monitor σ ι ρ κ} {object : Atomic α ι ρ} {represents : σ → α → Prop}

/-- What the fields are to the value of the object, by the place of the thread that holds the mutex:
a section under way began at fields that represent the value, and has the end it had then. -/
def Stands (monitor : Monitor σ ι ρ κ) (represents : σ → α → Prop) (shared : σ) (value : α) :
    Phase ι ρ κ → Prop
  | .inside call place => ∃ first before,
      monitor.enter call = .inr first ∧ represents before value ∧
        ∀ answer after, monitor.Finishes (.inl place) shared answer after ↔
          monitor.Finishes (.inl first) before answer after
  | _ => represents shared value

/-- The mutex belongs to the thread inside a section, and only while it is held may the fields not
represent the value of the object. -/
structure Matches (monitor : Monitor σ ι ρ κ) (represents : σ → α → Prop)
    (world : World σ ι ρ κ θ) (atomic : Atomic.World α ι ρ θ) : Prop where
  owner_iff : ∀ thread, world.owner = some thread ↔ (world.phase thread).holds = true
  stage : ∀ thread, (world.phase thread).stage = atomic.stage thread
  waiting : ∀ thread call place, world.phase thread = .waiting call place →
    monitor.enter call = .inr place
  free : world.owner = none → represents world.shared atomic.value
  held : ∀ thread, world.owner = some thread →
    monitor.Stands represents world.shared atomic.value (world.phase thread)

theorem start_matches {shared : σ} {value : α} (represented : represents shared value) :
    Matches monitor represents (World.start shared : World σ ι ρ κ θ) (.start value) where
  owner_iff thread := iff_of_false (by simp [World.start]) (by simp [World.start, Phase.holds])
  stage thread := rfl
  waiting thread call place found := by cases found
  free _ := represented
  held thread owned := by cases owned

/-- A statement about every thread after one of them moved. -/
theorem forall_moved [DecidableEq θ] {phase : θ → Phase ι ρ κ} {thread : θ} {next : Phase ι ρ κ}
    (p : θ → Phase ι ρ κ → Prop) (moved : p thread next)
    (others : ∀ other, other ≠ thread → p other (phase other)) (other : θ) :
    p other (Function.update phase thread next other) :=
  (Function.forall_update_iff phase (p := p)).mpr ⟨moved, others⟩ other

namespace Matches

variable {world : World σ ι ρ κ θ} {atomic : Atomic.World α ι ρ θ} {thread other : θ}

/-- A thread that holds the mutex is the only one. -/
theorem alone (matched : Matches monitor represents world atomic)
    (owned : world.owner = some thread) (ne : other ≠ thread) :
    (world.phase other).holds = false := by
  rw [← Bool.not_eq_true, ← matched.owner_iff, owned]
  exact fun same => ne (Option.some.inj same).symm

variable [DecidableEq θ]

/-- A thread moves and the other threads stay where they are. -/
theorem stage_moved (matched : Matches monitor represents world atomic) (next : Phase ι ρ κ)
    (other : θ) : (Function.update world.phase thread next other).stage =
      Function.update atomic.stage thread next.stage other := by
  by_cases same : other = thread
  · subst same
    rw [Function.update_self, Function.update_self]
  · rw [Function.update_of_ne same, Function.update_of_ne same, matched.stage]

/-- A thread moves and its call has not taken effect meanwhile. -/
theorem stage_kept (matched : Matches monitor represents world atomic) {next : Phase ι ρ κ}
    (same : next.stage = (world.phase thread).stage) (other : θ) :
    (Function.update world.phase thread next other).stage = atomic.stage other := by
  rw [matched.stage_moved, same, matched.stage, Function.update_eq_self]

/-- A thread moves to a place that is not in front of the lock. -/
theorem waiting_moved (matched : Matches monitor represents world atomic) {next : Phase ι ρ κ}
    (waits : ∀ call place, next = .waiting call place → monitor.enter call = .inr place) :
    ∀ other call place, Function.update world.phase thread next other = .waiting call place →
      monitor.enter call = .inr place :=
  forall_moved (fun _ phase => ∀ call place, phase = .waiting call place →
    monitor.enter call = .inr place) waits fun other _ => matched.waiting other

/-- A move of a thread that does not hold the mutex. -/
theorem outside (matched : Matches monitor represents world atomic) {next : Phase ι ρ κ}
    (outside : (world.phase thread).holds = false) (stays : next.holds = false)
    (waits : ∀ call place, next = .waiting call place → monitor.enter call = .inr place) :
    Matches monitor represents
      { world with phase := Function.update world.phase thread next }
      { atomic with stage := Function.update atomic.stage thread next.stage } where
  owner_iff := forall_moved (fun other phase => world.owner = some other ↔ phase.holds = true)
    (by rw [matched.owner_iff, outside, stays]) fun other _ => matched.owner_iff other
  stage := matched.stage_moved next
  waiting := matched.waiting_moved waits
  free := matched.free
  held := by
    apply forall_moved (fun other phase => world.owner = some other →
      monitor.Stands represents world.shared atomic.value phase)
    · intro owned
      rw [matched.owner_iff, outside] at owned
      contradiction
    · exact fun other _ => matched.held other

/-- A thread locks the free mutex. -/
theorem lock (matched : Matches monitor represents world atomic) {call : ι} {place : κ}
    (waits : world.phase thread = .waiting call place) (free : world.owner = none) :
    Matches monitor represents
      { world with
        owner := some thread
        phase := Function.update world.phase thread (.inside call place) } atomic where
  owner_iff := by
    apply forall_moved (fun other phase => some thread = some other ↔ phase.holds = true)
    · exact iff_of_true rfl rfl
    · intro other ne
      rw [← matched.owner_iff, free]
      exact iff_of_false (fun same => ne (Option.some.inj same).symm) (by simp)
  stage := matched.stage_kept (by rw [waits]; rfl)
  waiting := matched.waiting_moved fun call place found => by cases found
  free := fun unowned => by cases unowned
  held := by
    apply forall_moved (fun other phase => some thread = some other →
      monitor.Stands represents world.shared atomic.value phase)
    · intro _
      exact ⟨place, world.shared, matched.waiting thread call place waits, matched.free free,
        fun _ _ => Iff.rfl⟩
    · exact fun other ne same => absurd (Option.some.inj same).symm ne

/-- A move of the thread that holds the mutex, which keeps it. -/
theorem held_move (matched : Matches monitor represents world atomic)
    (holds : (world.phase thread).holds = true) (next : Phase ι ρ κ) (keeps : next.holds = true)
    {shared : σ} {value : α} (stands : monitor.Stands represents shared value next) :
    Matches monitor represents
      { world with shared, phase := Function.update world.phase thread next }
      { value, stage := Function.update atomic.stage thread next.stage } := by
  have owned := (matched.owner_iff thread).mpr holds
  refine ⟨?_, matched.stage_moved next, ?_, ?_, ?_⟩
  · exact forall_moved (fun other phase => world.owner = some other ↔ phase.holds = true)
      (iff_of_true owned keeps) fun other _ => matched.owner_iff other
  · apply matched.waiting_moved
    rintro call place rfl
    cases keeps
  · intro free
    rw [show world.owner = none from free] at owned
    contradiction
  · apply forall_moved (fun other phase => world.owner = some other →
      monitor.Stands represents shared value phase)
    · exact fun _ => stands
    · intro other ne owned'
      exact absurd (Option.some.inj (owned'.symm.trans owned)) ne

/-- A thread unlocks the mutex. -/
theorem unlock (matched : Matches monitor represents world atomic) {answer : ρ}
    (leaves : world.phase thread = .leaving answer) :
    Matches monitor represents
      { world with
        owner := none
        phase := Function.update world.phase thread (.returning answer) } atomic := by
  have owned := (matched.owner_iff thread).mpr (by rw [leaves]; rfl)
  refine ⟨?_, matched.stage_kept (by rw [leaves]; rfl), ?_, ?_, ?_⟩
  · apply forall_moved (fun other phase => none = some other ↔ phase.holds = true)
    · exact iff_of_false (by simp) (by simp [Phase.holds])
    · intro other ne
      exact iff_of_false (by simp) (by simp [matched.alone owned ne])
  · exact matched.waiting_moved fun call place found => by cases found
  · intro _
    have stands := matched.held thread owned
    rwa [leaves] at stands
  · intro other owned'
    cases owned'

end Matches

/-! ## Every interleaving is a behaviour of the object -/

variable [DecidableEq θ] [DecidableEq ρ]

/-- A move of the monitor is a run of the object that shows the threads the same. -/
theorem exists_atomic_of_step (implements : monitor.Implements object represents)
    {event : Event ι ρ θ} {world after : World σ ι ρ κ θ} {atomic : Atomic.World α ι ρ θ}
    (matched : Matches monitor represents world atomic)
    (execution : monitor.step event world = some after) :
    ∃ events atomicAfter, PartialRun.run object.step events atomic = some atomicAfter ∧
      events.filterMap Atomic.Event.seen = event.seen.toList ∧
      Matches monitor represents after atomicAfter := by
  cases event with
  | invoked thread call =>
      simp only [step] at execution
      split at execution
      · rename_i idle
        cases execution
        have outside : (world.phase thread).holds = false := by rw [idle]; rfl
        have idle' : atomic.stage thread = .idle := by rw [← matched.stage, idle]; rfl
        cases enters : monitor.enter call with
        | inl answer =>
            have entrance_eq : monitor.entrance call = .returning answer := by
              rw [entrance, enters]
            rw [entrance_eq]
            refine ⟨[.invoked thread call, .effect thread], _, ?_, rfl,
              matched.outside outside rfl fun _ _ found => by cases found⟩
            rw [PartialRun.run_cons, Atomic.step_invoked idle', Option.bind_some,
              PartialRun.run_cons, Atomic.step_effect (Function.update_self ..)]
            simp only [implements.direct enters, Function.update_idem, Phase.stage,
              Option.bind_some, PartialRun.run_nil]
        | inr place =>
            have entrance_eq : monitor.entrance call = .waiting call place := by
              rw [entrance, enters]
            rw [entrance_eq]
            refine ⟨[.invoked thread call], _, ?_, rfl,
              matched.outside outside rfl fun _ _ found => by cases found; exact enters⟩
            rw [PartialRun.run_cons, Atomic.step_invoked idle', Option.bind_some]
            rfl
      · contradiction
  | lock thread =>
      simp only [step] at execution
      split at execution
      · rename_i call place waits free
        cases execution
        exact ⟨[], atomic, rfl, rfl, matched.lock waits free⟩
      · contradiction
  | advance thread =>
      simp only [step] at execution
      split at execution
      · rename_i call place inside
        obtain ⟨⟨next, shared⟩, statement, rfl⟩ := Option.map_eq_some_iff.mp execution
        have holds : (world.phase thread).holds = true := by rw [inside]; rfl
        have stands := matched.held thread ((matched.owner_iff thread).mpr holds)
        rw [inside] at stands
        obtain ⟨first, before, enters, represented, ends_alike⟩ := stands
        have called : atomic.stage thread = .called call := by rw [← matched.stage, inside]; rfl
        cases next with
        | inl place' =>
            refine ⟨[], atomic, rfl, rfl, ?_⟩
            have moved := matched.held_move holds (.inside call place') rfl
              ⟨first, before, enters, represented, fun answer after => by
                rw [← ends_alike, finishes_of_statement statement]⟩
            rwa [show Function.update atomic.stage thread (Phase.inside call place').stage =
              atomic.stage by rw [Function.update_eq_self_iff]; exact called.symm] at moved
        | inr answer =>
            have finishes := (finishes_of_statement statement).mpr (.unlock answer shared)
            obtain ⟨answer_eq, represented'⟩ := implements.finished enters represented
              ((ends_alike answer shared).mp finishes)
            refine ⟨[.effect thread], _, ?_, rfl,
              matched.held_move holds (.leaving answer) rfl represented'⟩
            rw [PartialRun.run_cons, Atomic.step_effect called, ← answer_eq]
            rfl
      · contradiction
  | unlock thread =>
      simp only [step] at execution
      split at execution
      · rename_i answer leaves
        cases execution
        exact ⟨[], atomic, rfl, rfl, matched.unlock leaves⟩
      · contradiction
  | returned thread answer =>
      simp only [step] at execution
      split at execution
      · rename_i found returning
        split at execution
        · rename_i same
          subst same
          cases execution
          have answered : atomic.stage thread = .answered found := by
            rw [← matched.stage, returning]; rfl
          refine ⟨[.returned thread found], _, ?_, rfl, matched.outside (by rw [returning]; rfl)
            rfl fun _ _ found => by cases found⟩
          rw [PartialRun.run_cons, Atomic.step_returned answered]
          rfl
        · contradiction
      · contradiction

/-- Every interleaving of the statements of any number of threads shows them a behaviour of the
object, and while the mutex is free the fields represent its value. -/
theorem exists_atomic (implements : monitor.Implements object represents) {shared : σ} {value : α}
    (represented : represents shared value) {events : List (Event ι ρ θ)}
    {final : World σ ι ρ κ θ}
    (execution : PartialRun.run monitor.step events (World.start shared) = some final) :
    ∃ atomicEvents atomicFinal,
      PartialRun.run object.step atomicEvents (Atomic.World.start value) = some atomicFinal ∧
      atomicEvents.filterMap Atomic.Event.seen = events.filterMap Event.seen ∧
      Matches monitor represents final atomicFinal := by
  have initial : Matches monitor represents (World.start shared : World σ ι ρ κ θ)
      (.start value) := start_matches represented
  revert initial execution
  generalize (World.start shared : World σ ι ρ κ θ) = world
  generalize (Atomic.World.start value : Atomic.World α ι ρ θ) = atomic
  intro execution matched
  induction events generalizing world atomic with
  | nil =>
      obtain rfl : world = final := by simpa using execution
      exact ⟨[], atomic, rfl, rfl, matched⟩
  | cons event events ih =>
      obtain ⟨middle, first, rest⟩ := PartialRun.run_cons_eq_some.mp execution
      obtain ⟨front, atomicMiddle, front_run, front_seen, kept⟩ :=
        exists_atomic_of_step implements matched first
      obtain ⟨back, atomicFinal, back_run, back_seen, finally_kept⟩ :=
        ih middle atomicMiddle rest kept
      refine ⟨front ++ back, atomicFinal, ?_, ?_, finally_kept⟩
      · rw [PartialRun.run_append, front_run, Option.bind_some, back_run]
      · rw [List.filterMap_append, front_seen, back_seen, List.filterMap_cons]
        cases event.seen with
        | none => rfl
        | some observation => rfl

/-! ## The mutex is always given back -/

/-- The section of a safe call ends: none of its statements is undefined. -/
def Ends (monitor : Monitor σ ι ρ κ) (represents : σ → α → Prop) (safe : ι → α → Prop) : Prop :=
  ∀ call place before value, monitor.enter call = .inr place → represents before value →
    safe call value → ∃ answer after, monitor.Finishes (.inl place) before answer after

/-- A thread in front of the unlock gives the mutex back. -/
theorem step_unlock (monitor : Monitor σ ι ρ κ) {world : World σ ι ρ κ θ} {thread : θ} {answer : ρ}
    (leaves : world.phase thread = .leaving answer) :
    ∃ final, monitor.step (.unlock thread) world = some final ∧ final.owner = none := by
  rw [step, leaves]
  exact ⟨_, rfl, rfl⟩

/-- A thread whose section ends comes to the unlock by its own statements. -/
theorem exists_unlock {point : κ ⊕ ρ} {answer : ρ} {before after : σ}
    (finishes : monitor.Finishes point before answer after) (world : World σ ι ρ κ θ) {thread : θ}
    {call : ι} (stands : world.phase thread = exit call point) (shared_eq : world.shared = before) :
    ∃ count final, PartialRun.run monitor.step
        (List.replicate count (.advance thread) ++ [.unlock thread]) world = some final ∧
      final.owner = none := by
  induction finishes generalizing world with
  | unlock answer shared =>
      obtain ⟨final, execution, free⟩ := step_unlock monitor stands
      exact ⟨0, final, PartialRun.run_cons_eq_some.mpr ⟨final, execution, rfl⟩, free⟩
  | @advance place before middle after next answer statement rest ih =>
      obtain ⟨count, final, execution, free⟩ := ih
        { world with
          shared := middle
          phase := Function.update world.phase thread (exit call next) }
        (Function.update_self ..) rfl
      refine ⟨count + 1, final, ?_, free⟩
      rw [List.replicate_succ, List.cons_append, PartialRun.run_cons]
      simp only [step, stands, exit, shared_eq, statement, Option.map_some, Option.bind_some]
      exact execution

/-- The calls that have not taken effect yet are safe. -/
def Safely (safe : ι → α → Prop) (atomic : Atomic.World α ι ρ θ) : Prop :=
  ∀ thread call, atomic.stage thread = .called call → safe call atomic.value

omit [DecidableEq θ] [DecidableEq ρ] in
/-- A section under way ends. -/
theorem exists_finish {safe : ι → α → Prop} (ends : monitor.Ends represents safe)
    {world : World σ ι ρ κ θ} {atomic : Atomic.World α ι ρ θ}
    (matched : Matches monitor represents world atomic) (safely : Safely safe atomic)
    {thread : θ} {call : ι} {place : κ} (inside : world.phase thread = .inside call place) :
    ∃ answer after, monitor.Finishes (.inl place) world.shared answer after := by
  have stage := matched.stage thread
  have stands := matched.held thread ((matched.owner_iff thread).mpr (by rw [inside]; rfl))
  rw [inside] at stage stands
  obtain ⟨first, before, enters, represented, ends_alike⟩ := stands
  obtain ⟨answer, after, finishes⟩ :=
    ends call first before atomic.value enters represented (safely thread call stage.symm)
  exact ⟨answer, after, (ends_alike answer after).mpr finishes⟩

/-- The thread that holds the mutex gives it back after finitely many statements of its own. -/
theorem releases {safe : ι → α → Prop} (ends : monitor.Ends represents safe)
    {world : World σ ι ρ κ θ} {atomic : Atomic.World α ι ρ θ}
    (matched : Matches monitor represents world atomic) (safely : Safely safe atomic)
    {thread : θ} (owned : world.owner = some thread) :
    ∃ count final, PartialRun.run monitor.step
        (List.replicate count (.advance thread) ++ [.unlock thread]) world = some final ∧
      final.owner = none := by
  have holds := (matched.owner_iff thread).mp owned
  cases phase : world.phase thread with
  | inside call place =>
      obtain ⟨answer, after, finishes⟩ := exists_finish ends matched safely phase
      exact exists_unlock finishes world (show _ = exit call (.inl place) from phase) rfl
  | leaving answer =>
      obtain ⟨final, execution, free⟩ := step_unlock monitor phase
      exact ⟨0, final, PartialRun.run_cons_eq_some.mpr ⟨final, execution, rfl⟩, free⟩
  | idle => rw [phase] at holds; cases holds
  | waiting call place => rw [phase] at holds; cases holds
  | returning answer => rw [phase] at holds; cases holds

/-- The thread of a move. -/
def Event.thread : Event ι ρ θ → θ
  | .invoked thread _ => thread
  | .lock thread => thread
  | .advance thread => thread
  | .unlock thread => thread
  | .returned thread _ => thread

/-- A thread can always go on, except in front of a mutex that belongs to another thread. -/
theorem moves_or_waits {safe : ι → α → Prop} (ends : monitor.Ends represents safe)
    {world : World σ ι ρ κ θ} {atomic : Atomic.World α ι ρ θ}
    (matched : Matches monitor represents world atomic) (safely : Safely safe atomic)
    {thread : θ} (busy : (world.phase thread).stage ≠ .idle) :
    (∃ event : Event ι ρ θ, event.thread = thread ∧ (monitor.step event world).isSome) ∨
      ∃ other, other ≠ thread ∧ world.owner = some other := by
  cases phase : world.phase thread with
  | idle => exact absurd (by rw [phase]; rfl) busy
  | waiting call place =>
      cases owned : world.owner with
      | none => exact Or.inl ⟨.lock thread, rfl, by simp [step, phase, owned]⟩
      | some other =>
          refine Or.inr ⟨other, ?_, rfl⟩
          rintro rfl
          have holds := (matched.owner_iff other).mp owned
          rw [phase] at holds
          cases holds
  | inside call place =>
      obtain ⟨answer, after, finishes⟩ := exists_finish ends matched safely phase
      obtain ⟨next, statement, -⟩ := finishes_inl_iff.mp finishes
      exact Or.inl ⟨.advance thread, rfl, by simp [step, phase, statement]⟩
  | leaving answer => exact Or.inl ⟨.unlock thread, rfl, by simp [step, phase]⟩
  | returning answer => exact Or.inl ⟨.returned thread answer, rfl, by simp [step, phase]⟩

end Monitor
