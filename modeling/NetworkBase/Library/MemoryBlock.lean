import Mathlib.Data.List.Basic

/-!
# Bounded blocks of memory

A block is the list of the cells of one allocation.  Reading and overwriting a range are defined
only where the range lies inside the block, so a defined result is also a proof that no cell
outside the allocation was touched.
-/

namespace MemoryBlock

variable {α : Type*}

/-- The cells from `position` on, as many as `count`, where they all exist. -/
def read (block : List α) (position count : Nat) : Option (List α) :=
  if position + count ≤ block.length then some ((block.drop position).take count) else none

/-- Overwrite the cells from `position` on with `cells`, where there is room for them. -/
def write (block : List α) (position : Nat) (cells : List α) : Option (List α) :=
  if position + cells.length ≤ block.length then
    some (block.take position ++ cells ++ block.drop (position + cells.length))
  else
    none

theorem read_eq_some {block : List α} {position count : Nat}
    (inside : position + count ≤ block.length) :
    read block position count = some ((block.drop position).take count) := by
  rw [read, if_pos inside]

theorem exists_write {block cells : List α} {position : Nat}
    (inside : position + cells.length ≤ block.length) :
    ∃ after, write block position cells = some after := by
  rw [write, if_pos inside]
  exact ⟨_, rfl⟩

/-- Overwriting cells does not change the size of the allocation. -/
theorem length_of_write {block cells after : List α} {position : Nat}
    (execution : write block position cells = some after) : after.length = block.length := by
  rw [write] at execution
  split at execution
  · rename_i inside
    cases execution
    simp only [List.length_append, List.length_take, List.length_drop]
    omega
  · contradiction

/-- The range that ends where the write began grows by exactly the written cells. -/
theorem window_of_write {block cells after : List α} {start position : Nat}
    (ordered : start ≤ position) (execution : write block position cells = some after) :
    (after.drop start).take (position + cells.length - start) =
      (block.drop start).take (position - start) ++ cells := by
  rw [write] at execution
  split at execution
  · rename_i inside
    cases execution
    have front_length : (block.take position).length = position := by
      rw [List.length_take]
      omega
    rw [List.append_assoc, List.drop_append_of_le_length (by omega),
      List.drop_take]
    have window_length :
        ((block.drop start).take (position - start)).length = position - start := by
      rw [List.length_take, List.length_drop]
      omega
    rw [← List.append_assoc, List.take_append_of_le_length]
    · rw [List.take_of_length_le]
      rw [List.length_append, window_length]
      omega
    · rw [List.length_append, window_length]
      omega
  · contradiction

/-- Overwriting a middle part of a block. -/
theorem write_append (front old cells back : List α) (same : old.length = cells.length) :
    write (front ++ old ++ back) front.length cells = some (front ++ cells ++ back) := by
  have inside : front.length + cells.length ≤ (front ++ old ++ back).length := by
    simp only [List.length_append]
    omega
  have behind : front.length + cells.length = (front ++ old).length := by
    rw [List.length_append, same]
  rw [write, if_pos inside, behind, List.drop_left, List.append_assoc front old back,
    List.take_left]

/-- Cells written at the front of a block are the cells read back from there. -/
theorem window_of_write_front {block cells after : List α}
    (execution : write block 0 cells = some after) :
    (after.drop 0).take cells.length = cells := by
  simpa using window_of_write (Nat.le_refl 0) execution

/-! ## Cells in an unbounded memory -/

/-- The cells lie in memory from `position` on. -/
def Stored (memory : Nat → α) : Nat → List α → Prop
  | _, [] => True
  | position, cell :: cells => memory position = cell ∧ Stored memory (position + 1) cells

theorem stored_append (memory : Nat → α) (position : Nat) (front back : List α) :
    Stored memory position (front ++ back) ↔
      Stored memory position front ∧ Stored memory (position + front.length) back := by
  induction front generalizing position with
  | nil => simp [Stored]
  | cons cell front ih =>
      rw [List.cons_append, Stored, Stored, ih, and_assoc, List.length_cons]
      rw [Nat.add_assoc, Nat.add_comm 1]

/-- A list lies at the front of the memory it fills. -/
theorem stored_getD (cells : List α) (rest : α) :
    Stored (fun position => (cells[position]?).getD rest) 0 cells := by
  have from_position (front back : List α) :
      Stored (fun position => ((front ++ back)[position]?).getD rest) front.length back := by
    induction back generalizing front with
    | nil => trivial
    | cons cell back ih =>
        constructor
        · simp
        · have moved := ih (front ++ [cell])
          rw [List.append_assoc, List.length_append] at moved
          exact moved
  exact from_position [] cells

end MemoryBlock
