import Mathlib.Data.List.Basic

/-!
# Conservation of a staged stream

A stage takes in a stream at one end and lets it out at the other, holding the middle in a queue.
`Conserved out staged inp` says that nothing was lost, repeated or reordered on the way: what left,
followed by what is held, is what came in.  `Staged` reads both streams off a growing log of events.
-/

/-- What left a stage, followed by what it still holds, is exactly what came in. -/
def Conserved {α : Type*} (out staged inp : List α) : Prop := out ++ staged = inp

namespace Conserved

variable {α : Type*} {out staged inp : List α}

theorem refl : Conserved ([] : List α) inp inp := List.nil_append inp

/-- Taking in more at the tail keeps the conservation. -/
theorem push (conserved : Conserved out staged inp) (items : List α) :
    Conserved out (staged ++ items) (inp ++ items) := by
  rw [Conserved, ← List.append_assoc, conserved]

/-- Letting out a front part of what is held keeps the conservation. -/
theorem pop (conserved : Conserved out staged inp) (count : Nat) :
    Conserved (out ++ staged.take count) (staged.drop count) inp := by
  rw [Conserved, List.append_assoc, List.take_append_drop, conserved]

/-- A conserving stage holds nothing exactly when everything that came in has left. -/
theorem staged_eq_nil_iff (conserved : Conserved out staged inp) : staged = [] ↔ out = inp := by
  constructor
  · rintro rfl
    rw [← conserved, List.append_nil]
  · rintro rfl
    exact List.append_cancel_left (conserved.trans (List.append_nil out).symm)

end Conserved

/-- Since the log was `base` and the stage held `held₀`, the events appended to the log let out and
took in just what explains what it holds now. -/
def Staged {ε α : Type*} (outOf inpOf : ε → List α) (base : List ε) (held₀ : List α)
    (log : List ε) (held : List α) : Prop :=
  ∃ shown, log = base ++ shown ∧
    Conserved (shown.flatMap outOf) held (held₀ ++ shown.flatMap inpOf)

namespace Staged

variable {ε α : Type*} {outOf inpOf : ε → List α} {base log : List ε} {held₀ held : List α}

theorem start (outOf inpOf : ε → List α) (log : List ε) (held : List α) :
    Staged outOf inpOf log held log held :=
  ⟨[], (List.append_nil log).symm, by simpa using Conserved.refl⟩

/-- An event that takes in items at the tail. -/
theorem push (staged : Staged outOf inpOf base held₀ log held) (event : ε)
    (keeps : outOf event = []) :
    Staged outOf inpOf base held₀ (log ++ [event]) (held ++ inpOf event) := by
  obtain ⟨shown, log_eq, conserved⟩ := staged
  refine ⟨shown ++ [event], by rw [log_eq, List.append_assoc], ?_⟩
  simpa [keeps, List.append_assoc] using conserved.push (inpOf event)

/-- An event that lets out the first `count` held items. -/
theorem pop (staged : Staged outOf inpOf base held₀ log held) (event : ε) {count : Nat}
    (lets : outOf event = held.take count) (keeps : inpOf event = []) :
    Staged outOf inpOf base held₀ (log ++ [event]) (held.drop count) := by
  obtain ⟨shown, log_eq, conserved⟩ := staged
  refine ⟨shown ++ [event], by rw [log_eq, List.append_assoc], ?_⟩
  simpa [lets, keeps, List.append_assoc] using conserved.pop count

/-- Events that neither take in nor let out. -/
theorem neutral (staged : Staged outOf inpOf base held₀ log held) {events : List ε}
    (silent : ∀ event ∈ events, outOf event = [] ∧ inpOf event = []) :
    Staged outOf inpOf base held₀ (log ++ events) held := by
  obtain ⟨shown, log_eq, conserved⟩ := staged
  refine ⟨shown ++ events, by rw [log_eq, List.append_assoc], ?_⟩
  have outs : events.flatMap outOf = [] :=
    List.flatMap_eq_nil_iff.mpr fun event mem => (silent event mem).1
  have inps : events.flatMap inpOf = [] :=
    List.flatMap_eq_nil_iff.mpr fun event mem => (silent event mem).2
  simpa [outs, inps] using conserved

/-- Over a whole log, what left and what is held is what came in. -/
theorem conserved (staged : Staged outOf inpOf [] [] log held) :
    Conserved (log.flatMap outOf) held (log.flatMap inpOf) := by
  obtain ⟨shown, log_eq, conserved⟩ := staged
  rw [List.nil_append] at log_eq conserved
  rw [log_eq]
  exact conserved

end Staged
