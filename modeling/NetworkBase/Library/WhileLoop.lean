import Mathlib.Data.Fintype.EquivFin
import Mathlib.Logic.Relation
import Mathlib.Order.Defs.PartialOrder
import Mathlib.Order.WellFounded

/-!
# Loops that may not end

The body of a loop answers with the next state or with the result of the loop.  A run of the loop
is given some fuel; `Returns` says that enough fuel brings a result, and the rules below follow one
iteration or a whole run.  What a loop returns does not depend on the fuel.  A loop over finitely
many states ends unless it comes back to one of them.
-/

namespace WhileLoop

variable {σ β : Type*}

/-- Run the loop for at most `fuel` iterations. -/
def run (body : σ → σ ⊕ β) : Nat → σ → Option β
  | 0, _ => none
  | fuel + 1, state =>
      match body state with
      | .inl next => run body fuel next
      | .inr result => some result

/-- The loop ends with this result. -/
def Returns (body : σ → σ ⊕ β) (state : σ) (result : β) : Prop :=
  ∃ fuel, run body fuel state = some result

variable {body : σ → σ ⊕ β} {state next : σ} {result : β}

theorem run_of_continue (step : body state = .inl next) (fuel : Nat) :
    run body (fuel + 1) state = run body fuel next := by
  rw [run, step]

theorem run_of_done (step : body state = .inr result) (fuel : Nat) :
    run body (fuel + 1) state = some result := by
  rw [run, step]

/-- More fuel changes no result. -/
theorem run_mono {fuel more : Nat} (le : fuel ≤ more)
    (execution : run body fuel state = some result) : run body more state = some result := by
  induction fuel generalizing state more with
  | zero => exact absurd execution (by simp [run])
  | succ fuel ih =>
      obtain ⟨rest, rfl⟩ := Nat.exists_eq_add_of_le' le
      cases step : body state with
      | inl next =>
          rw [run_of_continue step] at execution
          rw [← Nat.add_assoc, run_of_continue step]
          exact ih (Nat.le_add_left fuel rest) execution
      | inr other =>
          rw [run_of_done step] at execution
          rw [← Nat.add_assoc, run_of_done step]
          exact execution

/-- One more iteration. -/
theorem Returns.step (step : body state = .inl next) (rest : Returns body next result) :
    Returns body state result := by
  obtain ⟨fuel, execution⟩ := rest
  exact ⟨fuel + 1, (run_of_continue step fuel).trans execution⟩

/-- The last iteration. -/
theorem Returns.done (step : body state = .inr result) : Returns body state result :=
  ⟨1, run_of_done step 0⟩

/-- A loop has one result. -/
theorem Returns.unique {other : β} (first : Returns body state result)
    (second : Returns body state other) : result = other := by
  obtain ⟨fuel, execution⟩ := first
  obtain ⟨more, execution'⟩ := second
  have bounded := run_mono (Nat.le_max_left fuel more) execution
  have bounded' := run_mono (Nat.le_max_right fuel more) execution'
  exact Option.some.inj (bounded.symm.trans bounded')

/-- What every iteration preserves holds at the last one, and so does what follows from it about
the result. -/
theorem Returns.of_invariant (inv : σ → Prop) {post : β → Prop}
    (continues : ∀ state next, inv state → body state = .inl next → inv next)
    (ends : ∀ state result, inv state → body state = .inr result → post result)
    (returns : Returns body state result) (initial : inv state) : post result := by
  obtain ⟨fuel, execution⟩ := returns
  induction fuel generalizing state with
  | zero => exact absurd execution (by simp [run])
  | succ fuel ih =>
      cases step : body state with
      | inl next =>
          rw [run_of_continue step] at execution
          exact ih (continues state next initial step) execution
      | inr other =>
          rw [run_of_done step] at execution
          obtain rfl := Option.some.inj execution
          exact ends state other initial step

/-! ## The states of a run -/

/-- An iteration leads from one state to the next. -/
def Step (body : σ → σ ⊕ β) (state next : σ) : Prop := body state = .inl next

/-- Iterations lead from one state to another. -/
def Reaches (body : σ → σ ⊕ β) : σ → σ → Prop := Relation.ReflTransGen (Step body)

/-- One or more iterations lead from a state back to it. -/
def Circles (body : σ → σ ⊕ β) (state : σ) : Prop := Relation.TransGen (Step body) state state

/-- The states a run of at most `fuel` iterations goes through. -/
def visited (body : σ → σ ⊕ β) : Nat → σ → List σ
  | 0, _ => []
  | fuel + 1, state =>
      match body state with
      | .inl next => state :: visited body fuel next
      | .inr _ => [state]

theorem visited_of_continue (step : body state = .inl next) (fuel : Nat) :
    visited body (fuel + 1) state = state :: visited body fuel next := by
  rw [visited, step]

theorem visited_of_done (step : body state = .inr result) (fuel : Nat) :
    visited body (fuel + 1) state = [state] := by
  rw [visited, step]

/-- More fuel leads through more states. -/
theorem visited_mono {fuel more : Nat} (le : fuel ≤ more) {reached : σ}
    (mem : reached ∈ visited body fuel state) : reached ∈ visited body more state := by
  induction fuel generalizing state more with
  | zero => exact absurd mem List.not_mem_nil
  | succ fuel ih =>
      obtain ⟨rest, rfl⟩ := Nat.exists_eq_add_of_le' le
      cases step : body state with
      | inl next =>
          rw [visited_of_continue step] at mem
          rw [← Nat.add_assoc, visited_of_continue step]
          rcases List.mem_cons.mp mem with rfl | later
          · exact List.mem_cons_self ..
          · exact List.mem_cons_of_mem _ (ih (Nat.le_add_left fuel rest) later)
      | inr result =>
          rw [visited_of_done step] at mem
          rw [← Nat.add_assoc, visited_of_done step]
          exact mem

/-- A run that ends goes through the state of its last iteration. -/
theorem exists_last_of_run {fuel : Nat} (execution : run body fuel state = some result) :
    ∃ last ∈ visited body fuel state, body last = .inr result := by
  induction fuel generalizing state with
  | zero => exact absurd execution (by simp [run])
  | succ fuel ih =>
      cases step : body state with
      | inl next =>
          rw [run_of_continue step] at execution
          rw [visited_of_continue step]
          obtain ⟨last, mem, done⟩ := ih execution
          exact ⟨last, List.mem_cons_of_mem _ mem, done⟩
      | inr other =>
          rw [run_of_done step] at execution
          cases execution
          rw [visited_of_done step]
          exact ⟨state, List.mem_cons_self .., step⟩

/-- A body that agrees on the states of a run has the same run. -/
theorem run_congr {other : σ → σ ⊕ β} {fuel : Nat}
    (agree : ∀ reached ∈ visited body fuel state, other reached = body reached) :
    run other fuel state = run body fuel state := by
  induction fuel generalizing state with
  | zero => rfl
  | succ fuel ih =>
      cases step : body state with
      | inl next =>
          rw [visited_of_continue step] at agree
          obtain ⟨here, later⟩ := List.forall_mem_cons.mp agree
          rw [run_of_continue step, run_of_continue (here.trans step), ih later]
      | inr result =>
          rw [visited_of_done step] at agree
          have here := agree state (List.mem_cons_self ..)
          rw [run_of_done step, run_of_done (here.trans step)]

/-- A run goes through the states it reaches. -/
theorem mem_visited_iff {state reached : σ} :
    (∃ fuel, reached ∈ visited body fuel state) ↔ Reaches body state reached := by
  constructor
  · rintro ⟨fuel, mem⟩
    induction fuel generalizing state with
    | zero => exact absurd mem List.not_mem_nil
    | succ fuel ih =>
        cases step : body state with
        | inl next =>
            rw [visited_of_continue step] at mem
            rcases List.mem_cons.mp mem with rfl | later
            · exact .refl
            · exact .head step (ih later)
        | inr result =>
            rw [visited_of_done step] at mem
            rw [List.mem_singleton.mp mem]
            exact .refl
  · intro reaches
    induction reaches using Relation.ReflTransGen.head_induction_on with
    | refl =>
        refine ⟨1, ?_⟩
        cases step : body reached with
        | inl next =>
            rw [visited_of_continue step]
            exact List.mem_cons_self ..
        | inr result =>
            rw [visited_of_done step]
            exact List.mem_cons_self ..
    | head step _ ih =>
        obtain ⟨fuel, mem⟩ := ih
        refine ⟨fuel + 1, ?_⟩
        rw [visited_of_continue step]
        exact List.mem_cons_of_mem _ mem

/-- What is reached on the way does not change the result. -/
theorem returns_iff_of_reaches (reaches : Reaches body state next) :
    Returns body state result ↔ Returns body next result := by
  induction reaches with
  | refl => rfl
  | tail _ step ih =>
      refine ih.trans ⟨?_, Returns.step step⟩
      rintro ⟨fuel, execution⟩
      cases fuel with
      | zero => exact absurd execution (by simp [run])
      | succ fuel => exact ⟨fuel, (run_of_continue step fuel).symm.trans execution⟩

/-- A loop that returns reaches the state of its last iteration. -/
theorem Returns.exists_last (returns : Returns body state result) :
    ∃ last, Reaches body state last ∧ body last = .inr result := by
  obtain ⟨fuel, execution⟩ := returns
  induction fuel generalizing state with
  | zero => exact absurd execution (by simp [run])
  | succ fuel ih =>
      cases step : body state with
      | inl next =>
          rw [run_of_continue step] at execution
          obtain ⟨last, reaches, done⟩ := ih execution
          exact ⟨last, .head step reaches, done⟩
      | inr other =>
          rw [run_of_done step] at execution
          cases execution
          exact ⟨state, .refl, step⟩

/-- A loop that comes back to a state never returns. -/
theorem not_returns_of_circles (circles : Circles body state) : ¬Returns body state result := by
  rintro ⟨fuel, execution⟩
  induction fuel using Nat.strong_induction_on generalizing state with
  | _ fuel ih =>
      obtain ⟨next, step, back⟩ := Relation.TransGen.head'_iff.mp circles
      cases fuel with
      | zero => exact absurd execution (by simp [run])
      | succ fuel =>
          rw [run_of_continue step] at execution
          exact ih fuel (Nat.lt_succ_self fuel) (Relation.TransGen.tail' back step) execution

/-- A loop whose iterations increase a measure does not come back to a state. -/
theorem not_circles_of_increasing {α : Type*} [Preorder α] (measure : σ → α) {reached : σ}
    (reaches : Reaches body state reached)
    (increasing : ∀ earlier later, Reaches body state earlier → Step body earlier later →
      measure earlier < measure later) : ¬Circles body reached := by
  intro circles
  have onward (later : σ) (steps : Relation.TransGen (Step body) reached later) :
      measure reached < measure later := by
    induction steps with
    | single step => exact increasing _ _ reaches step
    | tail steps step ih =>
        have between := Relation.ReflTransGen.trans reaches steps.to_reflTransGen
        exact ih.trans (increasing _ _ between step)
  exact lt_irrefl _ (onward reached circles)

/-- Among finitely many states, a loop returns unless it reaches one that it comes back to. -/
theorem exists_returns_iff [Finite σ] :
    (∃ result, Returns body state result) ↔
      ∀ reached, Reaches body state reached → ¬Circles body reached := by
  constructor
  · rintro ⟨result, returns⟩ reached reaches circles
    exact not_returns_of_circles circles ((returns_iff_of_reaches reaches).mp returns)
  · intro straight
    -- Behind is less: on the reached states this order is well founded.
    let behind (later earlier : { reached // Reaches body state reached }) : Prop :=
      Relation.TransGen (Step body) earlier.val later.val
    have transitive : IsTrans _ behind := ⟨fun _ _ _ first second => second.trans first⟩
    have irreflexive : Std.Irrefl behind := ⟨fun reached => straight reached.val reached.property⟩
    have well_founded : WellFounded behind := Finite.wellFounded_of_trans_of_irrefl behind
    have all (reached : { reached // Reaches body state reached }) :
        ∃ result, Returns body reached.val result := by
      induction reached using well_founded.induction with
      | _ reached ih =>
          cases step : body reached.val with
          | inl next =>
              obtain ⟨result, returns⟩ :=
                ih ⟨next, reached.property.tail step⟩ (Relation.TransGen.single step)
              exact ⟨result, returns.step step⟩
          | inr result => exact ⟨result, Returns.done step⟩
    exact all ⟨state, .refl⟩

end WhileLoop
