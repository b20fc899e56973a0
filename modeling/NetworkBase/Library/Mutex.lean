import NetworkBase.Library.PartialRun
import Mathlib.Logic.Function.Basic

/-!
# Programs with a mutex that blocks

Threads run one program, each at a place of its own, over a shared state and one mutex.  A lock
waits while the mutex belongs to any thread, the waiting thread itself included.

If the places say which of them hold the mutex, it never belongs to two threads.  A thread in front
of a lock at a place that holds the mutex is stuck: from then on nobody passes a lock.  While the
owner is not led to such a place, it gives the mutex back by its own statements alone.
-/

namespace Mutex

variable {σ ι κ θ : Type*}

/-- The statement at a place. -/
inductive Statement (σ ι κ : Type*)
  /-- Lock the mutex; the lock shows in the shared state. -/
  | lock (next : κ) (shows : σ → σ)
  /-- Unlock the mutex; the unlock shows in the shared state. -/
  | unlock (next : κ) (shows : σ → σ)
  /-- Work on the shared state with an input, undefined where the input does not fit. -/
  | work (run : ι → σ → Option (κ × σ))

/-- A program gives every place a statement. -/
abbrev Program (σ ι κ : Type*) := κ → Statement σ ι κ

/-- The shared state, the thread the mutex belongs to, and where the threads are. -/
structure World (σ κ θ : Type*) where
  shared : σ
  owner : Option θ
  place : θ → κ

/-- A turn of a thread. -/
structure Turn (ι θ : Type*) where
  thread : θ
  input : ι

/-- A thread moves to another place. -/
def World.move [DecidableEq θ] (thread : θ) (next : κ) (shared : σ) (owner : Option θ)
    (world : World σ κ θ) : World σ κ θ where
  shared
  owner
  place := Function.update world.place thread next

/-- What a statement of a thread does: where it leads, the shared state and whom the mutex belongs
to then. -/
def Statement.perform [DecidableEq θ] (thread : θ) (input : ι) (owner : Option θ) (shared : σ) :
    Statement σ ι κ → Option (κ × σ × Option θ)
  | .lock next shows => if owner = none then some (next, shows shared, some thread) else none
  | .unlock next shows => if owner = some thread then some (next, shows shared, none) else none
  | .work run => (run input shared).map fun (next, after) => (next, after, owner)

/-- One statement of the thread whose turn it is. -/
def step [DecidableEq θ] (program : Program σ ι κ) (turn : Turn ι θ) (world : World σ κ θ) :
    Option (World σ κ θ) :=
  ((program (world.place turn.thread)).perform turn.thread turn.input world.owner
    world.shared).map fun (next, shared, owner) => world.move turn.thread next shared owner

/-- A statement whose places are renamed. -/
def Statement.map {κ' : Type*} (rename : κ → κ') : Statement σ ι κ → Statement σ ι κ'
  | .lock next shows => .lock (rename next) shows
  | .unlock next shows => .unlock (rename next) shows
  | .work run => .work fun input shared =>
      (run input shared).map fun (next, shared) => (rename next, shared)

theorem Statement.map_map {κ' κ'' : Type*} (rename : κ → κ') (again : κ' → κ'')
    (statement : Statement σ ι κ) :
    (statement.map rename).map again = statement.map (again ∘ rename) := by
  cases statement with
  | lock next shows => rfl
  | unlock next shows => rfl
  | work run =>
      simp only [Statement.map, Option.map_map]
      rfl

/-- Renamed work is work. -/
theorem Statement.map_eq_work {κ' : Type*} {rename : κ → κ'} {statement : Statement σ ι κ}
    {run : ι → σ → Option (κ' × σ)} (works : statement.map rename = .work run) {input : ι}
    {before after : σ} {next : κ'} (runs : run input before = some (next, after)) :
    ∃ work found, statement = .work work ∧ work input before = some (found, after) ∧
      next = rename found := by
  cases statement with
  | lock found shows => cases works
  | unlock found shows => cases works
  | work work =>
      cases works
      obtain ⟨⟨found, shared⟩, ran, same⟩ := Option.map_eq_some_iff.mp runs
      cases same
      exact ⟨work, found, rfl, ran, rfl⟩

/-- The statement is a lock. -/
def Statement.Locks : Statement σ ι κ → Prop
  | .lock _ _ => True
  | _ => False

/-! ## What a step can do -/

section Steps

variable [DecidableEq θ] {program : Program σ ι κ} {turn : Turn ι θ} {before after : World σ κ θ}

@[simp]
theorem World.move_place_self (thread : θ) (next : κ) (shared : σ) (owner : Option θ)
    (world : World σ κ θ) : (world.move thread next shared owner).place thread = next :=
  Function.update_self ..

theorem World.move_place_of_ne {thread other : θ} (differs : other ≠ thread) (next : κ) (shared : σ)
    (owner : Option θ) (world : World σ κ θ) :
    (world.move thread next shared owner).place other = world.place other :=
  Function.update_of_ne differs ..

/-- A step is a lock of a free mutex, an unlock by the owner, or work. -/
inductive Does (program : Program σ ι κ) (turn : Turn ι θ) (before after : World σ κ θ) : Prop
  | lock (next : κ) (shows : σ → σ) (stands : program (before.place turn.thread) = .lock next shows)
      (free : before.owner = none)
      (after_eq : after = before.move turn.thread next (shows before.shared) (some turn.thread))
  | unlock (next : κ) (shows : σ → σ)
      (stands : program (before.place turn.thread) = .unlock next shows)
      (owned : before.owner = some turn.thread)
      (after_eq : after = before.move turn.thread next (shows before.shared) none)
  | work (run : ι → σ → Option (κ × σ)) (next : κ) (shared : σ)
      (stands : program (before.place turn.thread) = .work run)
      (runs : run turn.input before.shared = some (next, shared))
      (after_eq : after = before.move turn.thread next shared before.owner)

theorem step_eq_some :
    step program turn before = some after ↔ ∃ next shared owner,
      (program (before.place turn.thread)).perform turn.thread turn.input before.owner
          before.shared = some (next, shared, owner) ∧
        before.move turn.thread next shared owner = after := by
  rw [step, Option.map_eq_some_iff]
  constructor
  · rintro ⟨⟨next, shared, owner⟩, performed, after_eq⟩
    exact ⟨next, shared, owner, performed, after_eq⟩
  · rintro ⟨next, shared, owner, performed, after_eq⟩
    exact ⟨(next, shared, owner), performed, after_eq⟩

/-- A renamed statement does what the statement does. -/
theorem Statement.perform_map {κ' : Type*} (rename : κ → κ') (thread : θ) (input : ι)
    (owner : Option θ) (shared : σ) (statement : Statement σ ι κ) :
    (statement.map rename).perform thread input owner shared =
      (statement.perform thread input owner shared).map fun (next, rest) =>
        (rename next, rest) := by
  cases statement with
  | lock next shows =>
      simp only [Statement.map, Statement.perform]
      split
      · rfl
      · rfl
  | unlock next shows =>
      simp only [Statement.map, Statement.perform]
      split
      · rfl
      · rfl
  | work run =>
      simp only [Statement.map, Statement.perform, Option.map_map]
      rfl

theorem step_cases (execution : step program turn before = some after) :
    Does program turn before after := by
  obtain ⟨next, shared, owner, performed, rfl⟩ := step_eq_some.mp execution
  cases stands : program (before.place turn.thread) with
  | lock next shows =>
      rw [stands] at performed
      simp only [Statement.perform, Option.ite_none_right_eq_some] at performed
      obtain ⟨free, same⟩ := performed
      cases same
      exact .lock next shows stands free rfl
  | unlock next shows =>
      rw [stands] at performed
      simp only [Statement.perform, Option.ite_none_right_eq_some] at performed
      obtain ⟨owned, same⟩ := performed
      cases same
      exact .unlock next shows stands owned rfl
  | work run =>
      rw [stands] at performed
      obtain ⟨⟨found, after⟩, runs, same⟩ := Option.map_eq_some_iff.mp performed
      cases same
      exact .work run next shared stands runs rfl

/-- The other threads stay where they are. -/
theorem place_of_ne (execution : step program turn before = some after) {other : θ}
    (differs : other ≠ turn.thread) : after.place other = before.place other := by
  rcases step_cases execution with ⟨next, shows, -, -, rfl⟩ | ⟨next, shows, -, -, rfl⟩ |
    ⟨run, next, shared, -, -, rfl⟩
  · exact World.move_place_of_ne differs ..
  · exact World.move_place_of_ne differs ..
  · exact World.move_place_of_ne differs ..

end Steps

/-- Whatever a statement does, the shared state before, the place it leads to and the shared state
after are related. -/
def Statement.Ensures (post : σ → κ → σ → Prop) : Statement σ ι κ → Prop
  | .lock next shows => ∀ shared, post shared next (shows shared)
  | .unlock next shows => ∀ shared, post shared next (shows shared)
  | .work run => ∀ input before next after, run input before = some (next, after) →
      post before next after

namespace Statement.Ensures

variable {post : σ → κ → σ → Prop} {statement : Statement σ ι κ}

theorem of_forall (always : ∀ before next after, post before next after) :
    statement.Ensures post := by
  cases statement with
  | lock next shows => exact fun shared => always _ _ _
  | unlock next shows => exact fun shared => always _ _ _
  | work run => exact fun _ before next after _ => always before next after

theorem mono {weaker : σ → κ → σ → Prop} (ensures : statement.Ensures post)
    (weaken : ∀ before next after, post before next after → weaker before next after) :
    statement.Ensures weaker := by
  cases statement with
  | lock next shows => exact fun shared => weaken _ _ _ (ensures shared)
  | unlock next shows => exact fun shared => weaken _ _ _ (ensures shared)
  | work run =>
      exact fun input before next after runs => weaken _ _ _ (ensures input before next after runs)

theorem map {κ' : Type*} {rename : κ → κ'} {post : σ → κ' → σ → Prop}
    (ensures : statement.Ensures fun before next after => post before (rename next) after) :
    (statement.map rename).Ensures post := by
  cases statement with
  | lock next shows => exact ensures
  | unlock next shows => exact ensures
  | work run =>
      intro input before next after runs
      obtain ⟨⟨found, shared⟩, ran, same⟩ := Option.map_eq_some_iff.mp runs
      cases same
      exact ensures input before found after ran

theorem perform [DecidableEq θ] (ensures : statement.Ensures post) {thread : θ} {input : ι}
    {owner owner' : Option θ} {before after : σ} {next : κ}
    (performed : statement.perform thread input owner before = some (next, after, owner')) :
    post before next after := by
  cases statement with
  | lock found shows =>
      simp only [Statement.perform, Option.ite_none_right_eq_some] at performed
      obtain ⟨-, same⟩ := performed
      cases same
      exact ensures before
  | unlock found shows =>
      simp only [Statement.perform, Option.ite_none_right_eq_some] at performed
      obtain ⟨-, same⟩ := performed
      cases same
      exact ensures before
  | work run =>
      obtain ⟨⟨found, shared⟩, runs, same⟩ := Option.map_eq_some_iff.mp performed
      cases same
      exact ensures input before next after runs

end Statement.Ensures

/-! ## A thread alone -/

section Alone

variable [DecidableEq θ] {program : Program σ ι κ} {thread : θ} {before middle after : World σ κ θ}

@[simp]
theorem World.move_move (thread : θ) (next last : κ) (shared shared' : σ) (owner owner' : Option θ)
    (world : World σ κ θ) :
    (world.move thread next shared owner).move thread last shared' owner' =
      world.move thread last shared' owner' := by
  simp only [World.move, Function.update_idem]

/-- The thread comes from one state to the other by its own turns. -/
def Alone (program : Program σ ι κ) (thread : θ) (before after : World σ κ θ) : Prop :=
  ∃ turns : List (Turn ι θ), (∀ turn ∈ turns, turn.thread = thread) ∧
    PartialRun.run (step program) turns before = some after

theorem Alone.refl (world : World σ κ θ) : Alone program thread world world :=
  ⟨[], fun _ mem => absurd mem List.not_mem_nil, rfl⟩

/-- One statement, and then others. -/
theorem Alone.head (input : ι) {next : κ} {shared : σ} {owner : Option θ}
    (performed : (program (before.place thread)).perform thread input before.owner before.shared =
      some (next, shared, owner))
    (rest : Alone program thread (before.move thread next shared owner) after) :
    Alone program thread before after := by
  obtain ⟨turns, own, execution⟩ := rest
  refine ⟨⟨thread, input⟩ :: turns, List.forall_mem_cons.mpr ⟨rfl, own⟩, ?_⟩
  exact PartialRun.run_cons_eq_some.mpr
    ⟨_, step_eq_some.mpr ⟨next, shared, owner, performed, rfl⟩, execution⟩

end Alone

/-! ## Whom the mutex belongs to -/

/-- A statement at a place that holds the mutex or does not leads to places of the right kind. -/
def Statement.Annotated (holds : κ → Bool) (here : Bool) : Statement σ ι κ → Prop
  | .lock next _ => holds next = true
  | .unlock next _ => here = true ∧ holds next = false
  | .work run => ∀ input before next after, run input before = some (next, after) →
      holds next = here

/-- The places say rightly whether a thread there holds the mutex. -/
def Annotated (program : Program σ ι κ) (holds : κ → Bool) : Prop :=
  ∀ place, (program place).Annotated holds (holds place)

theorem Statement.Annotated.map {κ' : Type*} {rename : κ → κ'} {holds : κ' → Bool} {here : Bool}
    {statement : Statement σ ι κ}
    (annotated : statement.Annotated (fun place => holds (rename place)) here) :
    (statement.map rename).Annotated holds here := by
  cases statement with
  | lock next shows => exact annotated
  | unlock next shows => exact annotated
  | work run =>
      intro input before next after runs
      obtain ⟨⟨found, shared⟩, ran, same⟩ := Option.map_eq_some_iff.mp runs
      cases same
      exact annotated input before found after ran

/-- The mutex belongs to the thread at a place that holds it. -/
def Owned (holds : κ → Bool) (world : World σ κ θ) : Prop :=
  ∀ thread, world.owner = some thread ↔ holds (world.place thread) = true

section Ownership

variable [DecidableEq θ] {program : Program σ ι κ} {holds : κ → Bool} {turn : Turn ι θ}
  {before after : World σ κ θ}

/-- A thread that moves within its side of the mutex. -/
theorem Owned.move (owned : Owned holds before) {thread : θ} {next : κ} {shared : σ}
    (same : holds next = holds (before.place thread)) :
    Owned holds (before.move thread next shared before.owner) := by
  intro other
  by_cases own : other = thread
  · subst own
    rw [World.move_place_self, same]
    exact owned other
  · rw [World.move_place_of_ne own]
    exact owned other

theorem Owned.step (annotated : Annotated program holds) (owned : Owned holds before)
    (execution : Mutex.step program turn before = some after) : Owned holds after := by
  rcases step_cases execution with ⟨next, shows, stands, free, rfl⟩ |
    ⟨next, shows, stands, mine, rfl⟩ | ⟨run, next, shared, stands, runs, rfl⟩
  · intro other
    by_cases own : other = turn.thread
    · subst own
      rw [World.move_place_self]
      have inside := annotated (before.place turn.thread)
      rw [stands] at inside
      exact ⟨fun _ => inside, fun _ => rfl⟩
    · rw [World.move_place_of_ne own]
      have outside : ¬holds (before.place other) = true := by
        rw [← owned other, free]
        nofun
      exact ⟨fun same => absurd (Option.some.inj same).symm own,
        fun inside => absurd inside outside⟩
  · intro other
    by_cases own : other = turn.thread
    · subst own
      have left := annotated (before.place turn.thread)
      rw [stands] at left
      rw [World.move_place_self, left.2]
      exact ⟨nofun, nofun⟩
    · rw [World.move_place_of_ne own]
      have outside : ¬holds (before.place other) = true := by
        rw [← owned other, mine]
        exact fun same => own (Option.some.inj same).symm
      exact ⟨nofun, fun inside => absurd inside outside⟩
  · have same := annotated (before.place turn.thread)
    rw [stands] at same
    exact owned.move (same _ _ _ _ runs)

end Ownership

/-! ## A thread that waits for itself -/

/-- The thread owns the mutex and stands in front of a lock. -/
structure Stuck (program : Program σ ι κ) (thread : θ) (world : World σ κ θ) : Prop where
  owns : world.owner = some thread
  waits : (program (world.place thread)).Locks

section Stucks

variable [DecidableEq θ] {program : Program σ ι κ} {thread : θ} {turn : Turn ι θ}
  {before after : World σ κ θ}

/-- What a step does while a thread waits for itself: another thread works. -/
theorem Stuck.step_cases (stuck : Stuck program thread before)
    (execution : step program turn before = some after) :
    turn.thread ≠ thread ∧ ∃ run next shared,
      program (before.place turn.thread) = .work run ∧
      run turn.input before.shared = some (next, shared) ∧
      after = before.move turn.thread next shared (some thread) := by
  rcases Mutex.step_cases execution with ⟨next, shows, stands, free, rfl⟩ |
    ⟨next, shows, stands, mine, rfl⟩ | ⟨run, next, shared, stands, runs, rfl⟩
  · exact absurd (stuck.owns.symm.trans free) (Option.some_ne_none thread)
  · have waits := stuck.waits
    obtain rfl := Option.some.inj (stuck.owns.symm.trans mine)
    rw [stands] at waits
    exact waits.elim
  · refine ⟨?_, run, next, shared, stands, runs, by rw [stuck.owns]⟩
    rintro rfl
    have waits := stuck.waits
    rw [stands] at waits
    exact waits

end Stucks

/-! ## Giving the mutex back -/

/-- At the places that satisfy `safe`, a thread that holds the mutex is not in front of a lock, its
work takes every input, and at most `left` statements are left to it before the unlock. -/
structure Releases (program : Program σ ι κ) (holds : κ → Bool) (safe : σ → κ → Prop)
    (left : κ → Nat) : Prop where
  unlocked : ∀ {place shared}, holds place = true → safe shared place → ¬(program place).Locks
  works : ∀ {place run}, holds place = true → program place = .work run → ∀ input shared,
    safe shared place → ∃ next after, run input shared = some (next, after) ∧
      safe after next ∧ left next < left place

section Release

variable [DecidableEq θ] {program : Program σ ι κ} {holds : κ → Bool} {safe : σ → κ → Prop}
  {left : κ → Nat} {thread : θ} {before : World σ κ θ}

/-- A thread at a safe place gives the mutex back by its own statements, whatever their inputs. -/
theorem exists_release (releases : Releases program holds safe left)
    (annotated : Annotated program holds) (owned : Owned holds before)
    (inside : holds (before.place thread) = true)
    (harmless : safe before.shared (before.place thread)) (input : ι) :
    ∃ count ≤ left (before.place thread) + 1, ∃ after,
      PartialRun.run (Mutex.step program) (List.replicate count ⟨thread, input⟩) before =
        some after ∧ after.owner = none := by
  generalize bound : left (before.place thread) = most
  induction most using Nat.strongRecOn generalizing before with
  | ind most ih =>
      cases stands : program (before.place thread) with
      | lock next shows =>
          have unlocked := releases.unlocked inside harmless
          rw [stands] at unlocked
          exact absurd trivial unlocked
      | unlock next shows =>
          refine ⟨1, Nat.le_add_left 1 most, before.move thread next (shows before.shared) none,
            PartialRun.run_cons_eq_some.mpr ⟨_, step_eq_some.mpr ⟨_, _, _, ?_, rfl⟩, rfl⟩, rfl⟩
          rw [stands]
          exact if_pos ((owned thread).mpr inside)
      | work run =>
          obtain ⟨next, shared, runs, harmless_next, less⟩ :=
            releases.works inside stands input before.shared harmless
          have moved : step program ⟨thread, input⟩ before =
              some (before.move thread next shared before.owner) := by
            refine step_eq_some.mpr ⟨_, _, _, ?_, rfl⟩
            rw [stands, Statement.perform, runs]
            rfl
          have owned_next := owned.step annotated moved
          have inside_next : holds ((before.move thread next shared before.owner).place thread) =
              true := by
            have same := annotated (before.place thread)
            rw [stands] at same
            rw [World.move_place_self, same _ _ _ _ runs]
            exact inside
          have less_next : left ((before.move thread next shared before.owner).place thread) <
              most := by
            rw [World.move_place_self, ← bound]
            exact less
          obtain ⟨count, count_le, after, execution, free⟩ := ih _ less_next owned_next inside_next
            (by rw [World.move_place_self]; exact harmless_next) rfl
          refine ⟨count + 1, by omega, after, ?_, free⟩
          rw [List.replicate_succ]
          exact PartialRun.run_cons_eq_some.mpr ⟨_, moved, execution⟩

end Release

end Mutex
