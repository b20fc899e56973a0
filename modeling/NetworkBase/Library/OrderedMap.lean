import Mathlib.Order.Lattice
import Mathlib.Data.List.Basic

/-!
# Ordered maps

A finite map as its entries in strictly increasing key order, which is also the order in which it
is traversed.  Insertion leaves a present key alone.
-/

/-- A finite map whose entries stand in strictly increasing key order. -/
structure OrderedMap (κ ν : Type*) [LinearOrder κ] where
  entries : List (κ × ν)
  sorted : entries.Pairwise fun first second => first.1 < second.1

namespace OrderedMap

variable {κ ν : Type*} [LinearOrder κ]

/-- The map without entries. -/
def empty : OrderedMap κ ν := ⟨[], List.Pairwise.nil⟩

/-- Put an entry at its place, unless the key is present. -/
def insertEntry (key : κ) (value : ν) : List (κ × ν) → List (κ × ν)
  | [] => [(key, value)]
  | (other, present) :: rest =>
      if key < other then (key, value) :: (other, present) :: rest
      else if key = other then (other, present) :: rest
      else (other, present) :: insertEntry key value rest

theorem mem_insertEntry {key : κ} {value : ν} {entry : κ × ν} {entries : List (κ × ν)}
    (mem : entry ∈ insertEntry key value entries) : entry = (key, value) ∨ entry ∈ entries := by
  induction entries with
  | nil => exact Or.inl (List.mem_singleton.mp mem)
  | cons head rest ih =>
      obtain ⟨other, present⟩ := head
      rw [insertEntry] at mem
      split_ifs at mem with before same
      · simpa using mem
      · exact Or.inr mem
      · rcases List.mem_cons.mp mem with rfl | later
        · exact Or.inr (List.mem_cons_self ..)
        · exact (ih later).imp_right (List.mem_cons_of_mem _)

theorem insertEntry_sorted (key : κ) (value : ν) {entries : List (κ × ν)}
    (sorted : entries.Pairwise fun first second => first.1 < second.1) :
    (insertEntry key value entries).Pairwise fun first second => first.1 < second.1 := by
  induction entries with
  | nil => exact List.pairwise_singleton _ _
  | cons head rest ih =>
      obtain ⟨other, present⟩ := head
      obtain ⟨first, rest_sorted⟩ := List.pairwise_cons.mp sorted
      rw [insertEntry]
      split_ifs with before same
      · refine List.pairwise_cons.mpr ⟨?_, sorted⟩
        intro entry mem
        rcases List.mem_cons.mp mem with rfl | later
        · exact before
        · exact lt_trans before (first entry later)
      · exact sorted
      · refine List.pairwise_cons.mpr ⟨?_, ih rest_sorted⟩
        intro entry mem
        rcases mem_insertEntry mem with rfl | later
        · exact lt_of_le_of_ne (not_lt.mp before) (Ne.symm same)
        · exact first entry later

/-- Insert an entry, unless its key is present. -/
def insert (key : κ) (value : ν) (map : OrderedMap κ ν) : OrderedMap κ ν :=
  ⟨insertEntry key value map.entries, insertEntry_sorted key value map.sorted⟩

/-- Remove the entry of a key. -/
def erase (key : κ) (map : OrderedMap κ ν) : OrderedMap κ ν :=
  ⟨map.entries.filter fun entry => entry.1 ≠ key, map.sorted.filter _⟩

/-- The value of a key. -/
def find (key : κ) (map : OrderedMap κ ν) : Option ν :=
  (map.entries.find? fun entry => entry.1 = key).map Prod.snd

/-- An entry is found under its key, since no other entry has it. -/
theorem find_eq_some_iff {key : κ} {value : ν} {map : OrderedMap κ ν} :
    map.find key = some value ↔ (key, value) ∈ map.entries := by
  rw [find, Option.map_eq_some_iff]
  constructor
  · rintro ⟨⟨other, present⟩, found, rfl⟩
    have same : other = key := by simpa using List.find?_some found
    exact same ▸ List.mem_of_find?_eq_some found
  · intro mem
    refine ⟨(key, value), ?_, rfl⟩
    obtain ⟨early, late, split_eq⟩ := List.mem_iff_append.mp mem
    have sorted := map.sorted
    rw [split_eq] at sorted
    have before : ∀ entry ∈ early, entry.1 < key := fun entry entry_mem =>
      (List.pairwise_append.mp sorted).2.2 entry entry_mem (key, value) List.mem_cons_self
    have skipped : early.find? (fun entry => decide (entry.1 = key)) = none := by
      rw [List.find?_eq_none]
      intro entry entry_mem
      simpa using ne_of_lt (before entry entry_mem)
    rw [split_eq, List.find?_append, skipped, Option.none_or, List.find?_cons_of_pos (by simp)]

/-- No value is found exactly if no entry has the key. -/
theorem find_eq_none_iff {key : κ} {map : OrderedMap κ ν} :
    map.find key = none ↔ ∀ value, (key, value) ∉ map.entries := by
  rw [Option.eq_none_iff_forall_ne_some]
  exact forall_congr' fun value => not_congr find_eq_some_iff

/-- Erasing takes out what has the key. -/
theorem mem_entries_erase_iff {key : κ} {entry : κ × ν} {map : OrderedMap κ ν} :
    entry ∈ (map.erase key).entries ↔ entry ∈ map.entries ∧ entry.1 ≠ key := by
  rw [erase, List.mem_filter, decide_eq_true_iff]

/-- The entries after an insertion. -/
theorem mem_insertEntry_iff {key : κ} {value : ν} {entry : κ × ν} {entries : List (κ × ν)}
    (sorted : entries.Pairwise fun first second => first.1 < second.1) :
    entry ∈ insertEntry key value entries ↔
      entry ∈ entries ∨ entry = (key, value) ∧ ∀ present, (key, present) ∉ entries := by
  induction entries with
  | nil => simp [insertEntry]
  | cons head rest ih =>
      obtain ⟨other, present⟩ := head
      obtain ⟨first, rest_sorted⟩ := List.pairwise_cons.mp sorted
      rw [insertEntry]
      split_ifs with before same
      · have absent (held : ν) : (key, held) ∉ (other, present) :: rest := by
          intro mem
          rcases List.mem_cons.mp mem with head_eq | later
          · exact ne_of_lt before (Prod.mk.inj head_eq).1
          · exact lt_asymm before (first _ later)
        rw [List.mem_cons, or_comm, and_iff_left absent]
      · subst same
        refine (or_iff_left ?_).symm
        exact fun absent => absent.2 present List.mem_cons_self
      · have absent_iff : (∀ held, (key, held) ∉ (other, present) :: rest) ↔
            ∀ held, (key, held) ∉ rest := by
          refine forall_congr' fun held => not_congr ?_
          rw [List.mem_cons, or_iff_right]
          exact fun head_eq => same (Prod.mk.inj head_eq).1
        rw [List.mem_cons, ih rest_sorted, absent_iff, List.mem_cons, or_assoc]

/-- A present key keeps its value. -/
theorem find_insert_self (key : κ) (value : ν) (map : OrderedMap κ ν) :
    (map.insert key value).find key = some ((map.find key).getD value) := by
  rw [find_eq_some_iff, insert, mem_insertEntry_iff map.sorted]
  cases present : map.find key with
  | none => exact Or.inr ⟨rfl, find_eq_none_iff.mp present⟩
  | some held => exact Or.inl (find_eq_some_iff.mp present)

theorem entries_insert_ne_nil (key : κ) (value : ν) (map : OrderedMap κ ν) :
    (map.insert key value).entries ≠ [] :=
  List.ne_nil_of_mem (find_eq_some_iff.mp (find_insert_self key value map))

theorem find_insert_of_ne {key other : κ} (different : other ≠ key) (value : ν)
    (map : OrderedMap κ ν) : (map.insert key value).find other = map.find other := by
  refine Option.ext fun held => ?_
  rw [find_eq_some_iff, find_eq_some_iff, insert, mem_insertEntry_iff map.sorted]
  exact or_iff_left fun added => different (Prod.mk.inj added.1).1

theorem find_erase_self (key : κ) (map : OrderedMap κ ν) : (map.erase key).find key = none := by
  rw [find_eq_none_iff]
  intro value mem
  exact (mem_entries_erase_iff.mp mem).2 rfl

theorem find_erase_of_ne {key other : κ} (different : other ≠ key) (map : OrderedMap κ ν) :
    (map.erase key).find other = map.find other := by
  refine Option.ext fun held => ?_
  rw [find_eq_some_iff, find_eq_some_iff, mem_entries_erase_iff]
  exact and_iff_left different

/-- The values in key order. -/
def values (map : OrderedMap κ ν) : List ν := map.entries.map Prod.snd

/-- A key beyond all present ones is inserted at the end. -/
theorem entries_insert_of_lt {key : κ} {map : OrderedMap κ ν}
    (beyond : ∀ entry ∈ map.entries, entry.1 < key) (value : ν) :
    (map.insert key value).entries = map.entries ++ [(key, value)] := by
  have at_end : ∀ entries : List (κ × ν), (∀ entry ∈ entries, entry.1 < key) →
      insertEntry key value entries = entries ++ [(key, value)] := by
    intro entries below
    induction entries with
    | nil => rfl
    | cons head rest ih =>
        obtain ⟨other, present⟩ := head
        obtain ⟨head_lt, rest_lt⟩ := List.forall_mem_cons.mp below
        rw [insertEntry, if_neg (not_lt.mpr (le_of_lt head_lt)), if_neg (ne_of_gt head_lt),
          ih rest_lt, List.cons_append]
  exact at_end map.entries beyond

/-- Inserting only adds the given entry. -/
theorem mem_entries_of_mem_insert {key : κ} {value : ν} {entry : κ × ν} {map : OrderedMap κ ν}
    (mem : entry ∈ (map.insert key value).entries) :
    entry = (key, value) ∨ entry ∈ map.entries := mem_insertEntry mem

/-- In a sorted list that starts with a key, erasing the key drops the head. -/
theorem filter_ne_head {key : κ} {value : ν} {rest : List (κ × ν)}
    (sorted : ((key, value) :: rest).Pairwise fun first second => first.1 < second.1) :
    ((key, value) :: rest).filter (fun entry => entry.1 ≠ key) = rest := by
  obtain ⟨first, -⟩ := List.pairwise_cons.mp sorted
  rw [List.filter_cons_of_neg (by simp), List.filter_eq_self]
  intro entry mem
  exact decide_eq_true (ne_of_gt (first entry mem))

/-- Erasing a present key takes exactly its value out. -/
theorem values_perm_of_mem {key : κ} {value : ν} {map : OrderedMap κ ν}
    (mem : (key, value) ∈ map.entries) : map.values.Perm (value :: (map.erase key).values) := by
  have entries_perm : ∀ entries : List (κ × ν),
      entries.Pairwise (fun first second => first.1 < second.1) → (key, value) ∈ entries →
      entries.Perm ((key, value) :: entries.filter fun entry => entry.1 ≠ key) := by
    intro entries sorted mem
    induction entries with
    | nil => exact absurd mem List.not_mem_nil
    | cons head rest ih =>
        obtain ⟨first, rest_sorted⟩ := List.pairwise_cons.mp sorted
        rcases List.mem_cons.mp mem with rfl | later
        · rw [filter_ne_head sorted]
        · have different : head.1 ≠ key := ne_of_lt (first _ later)
          rw [List.filter_cons_of_pos (by simpa using different)]
          exact ((ih rest_sorted later).cons head).trans (List.Perm.swap _ _ _)
  exact (entries_perm map.entries map.sorted mem).map Prod.snd

end OrderedMap
