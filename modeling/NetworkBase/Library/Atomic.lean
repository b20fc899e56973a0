import Mathlib
import NetworkBase.Library.PartialRun

/-!
# Objects whose calls take effect in one step

Any number of threads call an object.  A call is made, later takes effect in one indivisible step,
and later returns the answer that step gave; between these moments the other threads move.

What every move keeps holds after every run.  `size_add_cost_le` is a balance over all threads: the
size of the value and what the calls under way still bring in make up no more than what came in and
has not left.
-/

/-- An object that answers each call in one step. -/
structure Atomic (α ι ρ : Type*) where
  perform : ι → α → ρ × α

namespace Atomic

/-- A thread at an atomic object. -/
inductive Stage (ι ρ : Type*)
  | idle
  /-- The call has not taken effect yet. -/
  | called (call : ι)
  /-- The call has taken effect and has not returned yet. -/
  | answered (answer : ρ)

namespace Stage

variable {ι ρ : Type*}

/-- What a thread still has to bring in or has not carried home yet. -/
def weight (cost : ι → Nat) (gain : ρ → Nat) : Stage ι ρ → Nat
  | idle => 0
  | called call => cost call
  | answered answer => gain answer

variable {cost : ι → Nat} {gain : ρ → Nat}

@[simp]
theorem weight_idle : (idle : Stage ι ρ).weight cost gain = 0 := rfl

@[simp]
theorem weight_called (call : ι) : (called call : Stage ι ρ).weight cost gain = cost call := rfl

@[simp]
theorem weight_answered (answer : ρ) :
    (answered answer : Stage ι ρ).weight cost gain = gain answer := rfl

end Stage

/-- The value of the object and its threads. -/
structure World (α ι ρ θ : Type*) where
  value : α
  stage : θ → Stage ι ρ

/-- One move of a thread. -/
inductive Event (ι ρ θ : Type*)
  | invoked (thread : θ) (call : ι)
  /-- The call of the thread takes effect. -/
  | effect (thread : θ)
  | returned (thread : θ) (answer : ρ)

variable {α ι ρ θ : Type*} [DecidableEq θ] [DecidableEq ρ]

/-- One move, where the thread is at the place for it. -/
def step (object : Atomic α ι ρ) : Event ι ρ θ → World α ι ρ θ → Option (World α ι ρ θ)
  | .invoked thread call, world =>
      match world.stage thread with
      | .idle => some { world with stage := Function.update world.stage thread (.called call) }
      | _ => none
  | .effect thread, world =>
      match world.stage thread with
      | .called call => some
          { value := (object.perform call world.value).2
            stage := Function.update world.stage thread
              (.answered (object.perform call world.value).1) }
      | _ => none
  | .returned thread answer, world =>
      match world.stage thread with
      | .answered found =>
          if found = answer then
            some { world with stage := Function.update world.stage thread .idle }
          else
            none
      | _ => none

section Steps

variable {object : Atomic α ι ρ} {world : World α ι ρ θ} {thread : θ}

theorem step_invoked (idle : world.stage thread = .idle) (call : ι) :
    object.step (.invoked thread call) world =
      some { world with stage := Function.update world.stage thread (.called call) } := by
  simp only [step, idle]

theorem step_effect {call : ι} (called : world.stage thread = .called call) :
    object.step (.effect thread) world = some
      { value := (object.perform call world.value).2
        stage := Function.update world.stage thread
          (.answered (object.perform call world.value).1) } := by
  simp only [step, called]

theorem step_returned {answer : ρ} (answered : world.stage thread = .answered answer) :
    object.step (.returned thread answer) world =
      some { world with stage := Function.update world.stage thread .idle } := by
  simp only [step, answered, if_pos]

end Steps

/-- No thread has called the object yet. -/
def World.start (value : α) : World α ι ρ θ where
  value
  stage _ := .idle

/-- What the threads see of an object: their calls and the answers they got. -/
inductive Observation (ι ρ θ : Type*)
  | invoked (thread : θ) (call : ι)
  | returned (thread : θ) (answer : ρ)

/-- What is seen of a move at an atomic object. -/
def Event.seen : Event ι ρ θ → Option (Observation ι ρ θ)
  | .invoked thread call => some (.invoked thread call)
  | .effect _ => none
  | .returned thread answer => some (.returned thread answer)

variable {object : Atomic α ι ρ}

/-- What every move keeps, together with what has been seen, holds after every run. -/
theorem invariant_of_run (inv : List (Observation ι ρ θ) → World α ι ρ θ → Prop)
    {events : List (Event ι ρ θ)}
    (kept : ∀ event ∈ events, ∀ seen before after, inv seen before →
      object.step event before = some after → inv (seen ++ event.seen.toList) after)
    {before after : World α ι ρ θ}
    (execution : PartialRun.run object.step events before = some after)
    (initial : inv [] before) : inv (events.filterMap Event.seen) after := by
  have generally : ∀ seen, inv seen before → inv (seen ++ events.filterMap Event.seen) after := by
    clear initial
    induction events generalizing before with
    | nil =>
        obtain rfl : before = after := by simpa using execution
        simp
    | cons event events ih =>
        intro seen holds
        obtain ⟨middle, first, rest⟩ := PartialRun.run_cons_eq_some.mp execution
        obtain ⟨head, tail⟩ := List.forall_mem_cons.mp kept
        have later := ih tail rest _ (head seen before middle holds first)
        rw [List.append_assoc] at later
        rw [List.filterMap_cons]
        cases shown : event.seen with
        | none => simpa [shown] using later
        | some observation => simpa [shown] using later
  simpa using generally [] initial

/-- What a move did: the thread was at the place for it. -/
theorem step_cases {event : Event ι ρ θ} {before after : World α ι ρ θ}
    (execution : object.step event before = some after) :
    (∃ thread call, event = .invoked thread call ∧ before.stage thread = .idle ∧
      after = { before with stage := Function.update before.stage thread (.called call) }) ∨
    (∃ thread call, event = .effect thread ∧ before.stage thread = .called call ∧
      after =
        { value := (object.perform call before.value).2
          stage := Function.update before.stage thread
            (.answered (object.perform call before.value).1) }) ∨
    ∃ thread answer, event = .returned thread answer ∧ before.stage thread = .answered answer ∧
      after = { before with stage := Function.update before.stage thread .idle } := by
  cases event with
  | invoked thread call =>
      simp only [step] at execution
      split at execution
      · rename_i idle
        exact Or.inl ⟨thread, call, rfl, idle, (Option.some.inj execution).symm⟩
      · contradiction
  | effect thread =>
      simp only [step] at execution
      split at execution
      · rename_i call called
        exact Or.inr (Or.inl ⟨thread, call, rfl, called, (Option.some.inj execution).symm⟩)
      · contradiction
  | returned thread answer =>
      simp only [step] at execution
      split at execution
      · rename_i found answered
        split at execution
        · rename_i same
          subst same
          exact Or.inr (Or.inr ⟨thread, found, rfl, answered, (Option.some.inj execution).symm⟩)
        · contradiction
      · contradiction

/-! ## A balance over all threads -/

section Balance

variable (size : α → Nat) (cost : ι → Nat) (gain : ρ → Nat)

/-- What a call brings in. -/
def broughtIn : Observation ι ρ θ → Nat
  | .invoked _ call => cost call
  | .returned _ _ => 0

/-- What an answer carries home. -/
def carriedHome : Observation ι ρ θ → Nat
  | .invoked _ _ => 0
  | .returned _ answer => gain answer

/-- The size of the value and what is on its way make up no more than what came in and has not left,
where all threads that are on their way are among `threads`. -/
def Balanced (initial : Nat) (seen : List (Observation ι ρ θ)) (world : World α ι ρ θ) : Prop :=
  ∃ threads : Finset θ, (∀ thread, thread ∉ threads → world.stage thread = .idle) ∧
    size world.value + ∑ thread ∈ threads, (world.stage thread).weight cost gain +
      (seen.map (carriedHome gain)).sum ≤ initial + (seen.map (broughtIn cost)).sum

variable {size cost gain}

omit [DecidableEq ρ] in
/-- One thread moves to another stage. -/
theorem sum_moved (cost : ι → Nat) (gain : ρ → Nat) (stage : θ → Stage ι ρ)
    {threads : Finset θ} {thread : θ} (mem : thread ∈ threads) (next : Stage ι ρ) :
    (∑ other ∈ threads, (Function.update stage thread next other).weight cost gain) +
        (stage thread).weight cost gain =
      (∑ other ∈ threads, (stage other).weight cost gain) + next.weight cost gain := by
  have others : ∑ other ∈ threads.erase thread,
      (Function.update stage thread next other).weight cost gain =
        ∑ other ∈ threads.erase thread, (stage other).weight cost gain :=
    Finset.sum_congr rfl fun other found => by
      rw [Function.update_of_ne (Finset.ne_of_mem_erase found)]
  rw [← Finset.add_sum_erase _ _ mem, ← Finset.add_sum_erase _ _ mem, Function.update_self, others]
  omega

/-- A call that takes effect brings its cost in and sets its gain aside. -/
theorem balanced_of_step
    (pays : ∀ call value, size (object.perform call value).2 + gain (object.perform call value).1 ≤
      size value + cost call)
    {initial : Nat} {seen : List (Observation ι ρ θ)} {event : Event ι ρ θ}
    {before after : World α ι ρ θ} (balanced : Balanced size cost gain initial seen before)
    (execution : object.step event before = some after) :
    Balanced size cost gain initial (seen ++ event.seen.toList) after := by
  obtain ⟨threads, others, balance⟩ := balanced
  obtain ⟨thread, call, rfl, idle, rfl⟩ | ⟨thread, call, rfl, called, rfl⟩ |
    ⟨thread, answer, rfl, answered, rfl⟩ := step_cases execution
  · refine ⟨insert thread threads, ?_, ?_⟩
    · intro other absent
      rw [Finset.mem_insert, not_or] at absent
      exact (Function.update_of_ne absent.1 ..).trans (others other absent.2)
    · have moved := sum_moved cost gain before.stage
        (Finset.mem_insert_self thread threads) (.called call)
      have same : ∑ other ∈ insert thread threads, (before.stage other).weight cost gain =
          ∑ other ∈ threads, (before.stage other).weight cost gain := by
        by_cases mem : thread ∈ threads
        · rw [Finset.insert_eq_of_mem mem]
        · rw [Finset.sum_insert mem, idle, Stage.weight_idle, Nat.zero_add]
      rw [same, idle] at moved
      simp only [Event.seen, Option.toList, List.map_append, List.sum_append, List.map_cons,
        List.map_nil, List.sum_cons, List.sum_nil, broughtIn, carriedHome, Stage.weight_idle,
        Stage.weight_called] at moved ⊢
      omega
  · have mem : thread ∈ threads := by
      by_contra absent
      rw [others thread absent] at called
      cases called
    refine ⟨threads, ?_, ?_⟩
    · intro other absent
      have ne : other ≠ thread := by
        rintro rfl
        exact absent mem
      exact (Function.update_of_ne ne ..).trans (others other absent)
    · have moved := sum_moved cost gain before.stage mem
        (.answered (object.perform call before.value).1)
      have paid := pays call before.value
      rw [called] at moved
      simp only [Event.seen, Option.toList, List.append_nil, Stage.weight_called,
        Stage.weight_answered] at moved ⊢
      omega
  · have mem : thread ∈ threads := by
      by_contra absent
      rw [others thread absent] at answered
      cases answered
    refine ⟨threads, ?_, ?_⟩
    · intro other absent
      have ne : other ≠ thread := by
        rintro rfl
        exact absent mem
      exact (Function.update_of_ne ne ..).trans (others other absent)
    · have moved := sum_moved cost gain before.stage mem .idle
      rw [answered] at moved
      simp only [Event.seen, Option.toList, List.map_append, List.sum_append, List.map_cons,
        List.map_nil, List.sum_cons, List.sum_nil, broughtIn, carriedHome, Stage.weight_idle,
        Stage.weight_answered] at moved ⊢
      omega

/-- After every run a call that has not taken effect yet still fits into what came in and has not
left. -/
theorem size_add_cost_le (size : α → Nat) (cost : ι → Nat) (gain : ρ → Nat)
    (pays : ∀ call value, size (object.perform call value).2 + gain (object.perform call value).1 ≤
      size value + cost call)
    {events : List (Event ι ρ θ)} {value : α} {final : World α ι ρ θ}
    (execution : PartialRun.run object.step events (.start value) = some final)
    {thread : θ} {call : ι} (called : final.stage thread = .called call) :
    size final.value + cost call + ((events.filterMap Event.seen).map (carriedHome gain)).sum ≤
      size value + ((events.filterMap Event.seen).map (broughtIn cost)).sum := by
  have balanced := invariant_of_run (Balanced size cost gain (size value))
    (fun _ _ _ _ _ balanced step => balanced_of_step pays balanced step) execution
    ⟨∅, fun _ _ => rfl, by simp [World.start]⟩
  obtain ⟨threads, others, balance⟩ := balanced
  have mem : thread ∈ threads := by
    by_contra absent
    rw [others thread absent] at called
    cases called
  have part := Finset.single_le_sum (f := fun other => (final.stage other).weight cost gain)
    (fun _ _ => Nat.zero_le _) mem
  simp only [called, Stage.weight_called] at part
  omega

end Balance
end Atomic
