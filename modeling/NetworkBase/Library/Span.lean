import Mathlib.Data.List.TakeWhile

/-!
# Spans

A list that begins with a run of elements of one kind falls apart into the run and a rest that does
not go on with that kind.  There is only one way to cut it like this, and `takeWhile` and
`dropWhile` find it.
-/

namespace Span

variable {α : Type*} {kind : α → Bool} {run rest run' rest' : List α}

/-- The list does not begin with an element of the kind. -/
def Stops (kind : α → Bool) (rest : List α) : Prop := ∀ head ∈ rest.head?, kind head = false

theorem stops_nil : Stops kind [] := fun _ mem => absurd mem (by simp)

theorem stops_cons {head : α} (other : kind head = false) (rest : List α) :
    Stops kind (head :: rest) := by
  intro first mem
  obtain rfl := Option.some.inj mem
  exact other

theorem stops_dropWhile (kind : α → Bool) (list : List α) : Stops kind (list.dropWhile kind) := by
  intro head mem
  have stopped := List.head?_dropWhile_not kind list
  rw [Option.mem_def.mp mem] at stopped
  exact stopped

theorem takeWhile_append (all : ∀ element ∈ run, kind element = true) (stops : Stops kind rest) :
    (run ++ rest).takeWhile kind = run := by
  rw [List.takeWhile_append_of_pos all]
  cases rest with
  | nil => exact List.append_nil run
  | cons head rest =>
      rw [List.takeWhile_cons_of_neg (by simp [stops head rfl]), List.append_nil]

theorem dropWhile_append (all : ∀ element ∈ run, kind element = true) (stops : Stops kind rest) :
    (run ++ rest).dropWhile kind = rest := by
  rw [List.dropWhile_append_of_pos all]
  cases rest with
  | nil => rfl
  | cons head rest => rw [List.dropWhile_cons_of_neg (by simp [stops head rfl])]

/-- A list is cut in one way only. -/
theorem unique (all : ∀ element ∈ run, kind element = true) (stops : Stops kind rest)
    (all' : ∀ element ∈ run', kind element = true) (stops' : Stops kind rest')
    (same : run ++ rest = run' ++ rest') : run = run' ∧ rest = rest' := by
  constructor
  · rw [← takeWhile_append all stops, same, takeWhile_append all' stops']
  · rw [← dropWhile_append all stops, same, dropWhile_append all' stops']

end Span
