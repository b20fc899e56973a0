import Mathlib.Data.List.Basic

/-!
# Runs of partial labelled steps

A component is given by a step function from a label and a state to the next state, with `none`
where the component has no defined behaviour.  A run performs a list of labels in order.  The
rules of this file turn what one step preserves into what every run preserves: an invariant, an
invariant that holds only while every label is allowed, and a forward simulation by a total
abstract machine, which also proves that the run is defined.
-/

namespace PartialRun

variable {σ ι α : Type*}

/-- Perform the labels in order, undefined as soon as one step is. -/
def run (step : ι → σ → Option σ) : List ι → σ → Option σ
  | [], state => some state
  | label :: labels, state => (step label state).bind (run step labels)

@[simp]
theorem run_nil (step : ι → σ → Option σ) (state : σ) : run step [] state = some state := rfl

theorem run_cons (step : ι → σ → Option σ) (label : ι) (labels : List ι) (state : σ) :
    run step (label :: labels) state = (step label state).bind (run step labels) := rfl

/-- A run over a nonempty list takes its first step and runs on from there. -/
theorem run_cons_eq_some {step : ι → σ → Option σ} {label : ι} {labels : List ι}
    {before after : σ} :
    run step (label :: labels) before = some after ↔
      ∃ middle, step label before = some middle ∧ run step labels middle = some after := by
  rw [run_cons, Option.bind_eq_some_iff]

/-- A run over a concatenation is a run over the front followed by one over the back. -/
theorem run_append (step : ι → σ → Option σ) (front back : List ι) (state : σ) :
    run step (front ++ back) state = (run step front state).bind (run step back) := by
  induction front generalizing state with
  | nil => rfl
  | cons label front ih =>
      rw [List.cons_append, run_cons, run_cons, Option.bind_assoc]
      congr 1
      funext middle
      exact ih middle

/-- What every listed step preserves holds at the end of the run. -/
theorem invariant_of_mem {step : ι → σ → Option σ} (inv : σ → Prop) {labels : List ι}
    (preserved : ∀ label ∈ labels, ∀ before after,
      inv before → step label before = some after → inv after)
    {before after : σ} (execution : run step labels before = some after)
    (initial : inv before) : inv after := by
  induction labels generalizing before with
  | nil =>
      obtain rfl : before = after := by simpa using execution
      exact initial
  | cons label labels ih =>
      obtain ⟨middle, first, rest⟩ := run_cons_eq_some.mp execution
      obtain ⟨head, tail⟩ := List.forall_mem_cons.mp preserved
      exact ih tail rest (head before middle initial first)

/-- What every defined step preserves holds at the end of every run. -/
theorem invariant {step : ι → σ → Option σ} (inv : σ → Prop)
    (preserved : ∀ label before after, inv before → step label before = some after → inv after)
    {labels : List ι} {before after : σ} (execution : run step labels before = some after)
    (initial : inv before) : inv after :=
  invariant_of_mem inv (fun label _ before after => preserved label before after) execution initial

/-- Every label of the run is allowed by `guard` in the state in which it is performed. -/
def Guarded (step : ι → σ → Option σ) (guard : ι → σ → Prop) : List ι → σ → Prop
  | [], _ => True
  | label :: labels, state =>
      guard label state ∧ ∀ next, step label state = some next → Guarded step guard labels next

/-- What is always allowed is allowed in every run. -/
theorem guarded_of_forall {step : ι → σ → Option σ} {guard : ι → σ → Prop}
    (always : ∀ label state, guard label state) (labels : List ι) (state : σ) :
    Guarded step guard labels state := by
  induction labels generalizing state with
  | nil => trivial
  | cons label labels ih => exact ⟨always label state, fun next _ => ih next⟩

/-- Guards that agree allow the same runs. -/
theorem guarded_congr {step : ι → σ → Option σ} {guard guard' : ι → σ → Prop}
    (agree : ∀ label state, guard label state ↔ guard' label state) (labels : List ι)
    (state : σ) : Guarded step guard labels state ↔ Guarded step guard' labels state := by
  induction labels generalizing state with
  | nil => exact Iff.rfl
  | cons label labels ih =>
      refine and_congr (agree label state) (forall_congr' fun next => ?_)
      exact imp_congr_right fun _ => ih next

/-- What every allowed step preserves holds at the end of every guarded run. -/
theorem invariant_of_guarded {step : ι → σ → Option σ} {guard : ι → σ → Prop} (inv : σ → Prop)
    (preserved : ∀ label before after, inv before → guard label before →
      step label before = some after → inv after)
    {labels : List ι} {before after : σ} (execution : run step labels before = some after)
    (guarded : Guarded step guard labels before) (initial : inv before) : inv after := by
  induction labels generalizing before with
  | nil =>
      obtain rfl : before = after := by simpa using execution
      exact initial
  | cons label labels ih =>
      obtain ⟨middle, first, rest⟩ := run_cons_eq_some.mp execution
      obtain ⟨allowed, later⟩ := guarded
      exact ih rest (later middle first) (preserved label before middle initial allowed first)

/-- A guarded run whose allowed steps are defined and keep `inv` is itself defined and keeps it. -/
theorem defined_of_guarded {step : ι → σ → Option σ} {guard : ι → σ → Prop} (inv : σ → Prop)
    (progress : ∀ label before, inv before → guard label before →
      ∃ after, step label before = some after ∧ inv after)
    (labels : List ι) {before : σ} (guarded : Guarded step guard labels before)
    (initial : inv before) : ∃ after, run step labels before = some after ∧ inv after := by
  induction labels generalizing before with
  | nil => exact ⟨before, rfl, initial⟩
  | cons label labels ih =>
      obtain ⟨allowed, later⟩ := guarded
      obtain ⟨middle, first, kept⟩ := progress label before initial allowed
      obtain ⟨after, rest, final⟩ := ih (later middle first) kept
      exact ⟨after, run_cons_eq_some.mpr ⟨middle, first, rest⟩, final⟩

/-- A total abstract machine that simulates every allowed step simulates every guarded run. -/
theorem simulation {step : ι → σ → Option σ} {guard : ι → σ → Prop} {related : σ → α → Prop}
    (abstractStep : ι → α → α)
    (simulates : ∀ label before abstract, related before abstract → guard label before →
      ∃ after, step label before = some after ∧ related after (abstractStep label abstract))
    (labels : List ι) {before : σ} {abstract : α} (guarded : Guarded step guard labels before)
    (initial : related before abstract) :
    ∃ after, run step labels before = some after ∧
      related after (labels.foldl (fun state label => abstractStep label state) abstract) := by
  induction labels generalizing before abstract with
  | nil => exact ⟨before, rfl, initial⟩
  | cons label labels ih =>
      obtain ⟨allowed, later⟩ := guarded
      obtain ⟨middle, first, kept⟩ := simulates label before abstract initial allowed
      obtain ⟨after, rest, final⟩ := ih (later middle first) kept
      exact ⟨after, run_cons_eq_some.mpr ⟨middle, first, rest⟩, final⟩

/-- What an abstract machine is allowed to do during a run, a machine that it simulates is allowed
to do as well. -/
theorem guarded_of_abstract {step : ι → σ → Option σ} {guard : ι → σ → Prop}
    {allowed : ι → α → Prop} {related : σ → α → Prop} (abstractStep : ι → α → α)
    (carries : ∀ label before abstract, related before abstract → allowed label abstract →
      guard label before ∧
        ∀ after, step label before = some after → related after (abstractStep label abstract))
    {labels : List ι} {before : σ} {abstract : α} (initial : related before abstract)
    (guarded : Guarded (fun label state => some (abstractStep label state)) allowed labels
      abstract) : Guarded step guard labels before := by
  induction labels generalizing before abstract with
  | nil => trivial
  | cons label labels ih =>
      obtain ⟨holds, later⟩ := guarded
      obtain ⟨kept, simulates⟩ := carries label before abstract initial holds
      exact ⟨kept, fun after first => ih (simulates after first) (later _ rfl)⟩

/-- What a machine is allowed to do during a run that stays defined, the abstract machine that
simulates it is allowed to do as well. -/
theorem guarded_abstract {step : ι → σ → Option σ} {guard : ι → σ → Prop}
    {allowed : ι → α → Prop} {related : σ → α → Prop} (abstractStep : ι → α → α)
    (carries : ∀ label before abstract, related before abstract → guard label before →
      allowed label abstract ∧
        ∃ after, step label before = some after ∧ related after (abstractStep label abstract))
    {labels : List ι} {before : σ} {abstract : α} (initial : related before abstract)
    (guarded : Guarded step guard labels before) :
    Guarded (fun label state => some (abstractStep label state)) allowed labels abstract := by
  induction labels generalizing before abstract with
  | nil => trivial
  | cons label labels ih =>
      obtain ⟨holds, later⟩ := guarded
      obtain ⟨kept, after, first, simulates⟩ := carries label before abstract initial holds
      refine ⟨kept, ?_⟩
      rintro next ⟨⟩
      exact ih simulates (later after first)

end PartialRun
