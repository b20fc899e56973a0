import NetworkBase.Engine.BuildAgreement

/-!
# Histories of the `select` build

What `FdCheck` reports after a history of registrations depends on the interest that the map has
kept, on the largest descriptor that was ever added, and on what is ready.
-/

namespace NetworkBase
namespace IoMultiplexing
namespace Select

/-- `FD_SETSIZE`. -/
def fdSetSize : Nat := 1024

/-- What `AddFd` asks for. -/
structure Interest where
  read : Bool
  write : Bool
  deriving DecidableEq

/-- A registration or its end, for a descriptor that the kernel handed out. -/
inductive Op
  | addFd (fd : Nat) (interest : Interest)
  | deleteFd (fd : Nat)
  deriving DecidableEq

/-- Perform a registration. -/
def perform (io : Select) : Op → Select
  | .addFd fd interest => (io.addFd fd interest.read interest.write).2
  | .deleteFd fd => (io.deleteFd fd).2

/-- The object after a history. -/
def afterOps (readSet writeSet : FdSet) (ops : List Op) : Select :=
  ops.foldl perform (construct readSet writeSet)

/-- `Dispatch`, where its descriptors fit into the sets.  Otherwise `FD_SET` or `select` goes past
their end, and nothing is known. -/
def Dispatches (ready : Readiness) (endless : Bool) (timeOutMs : Nat) (io : Select) (value : Int)
    (after : Select) : Prop :=
  io.fdMax < fdSetSize → io.dispatch ready endless timeOutMs = some (value, after)

/-! ## What a history asks for -/

/-- What the latest `AddFd` asked for. -/
def latestStep (fd : Nat) (interest : Option Interest) : Op → Option Interest
  | .addFd other asked => if other = fd then some asked else interest
  | .deleteFd other => if other = fd then none else interest

/-- The interest in a descriptor. -/
def latest (fd : Nat) (ops : List Op) : Option Interest := ops.foldl (latestStep fd) none

/-- What the first `AddFd` asked for. -/
def keptStep (fd : Nat) (interest : Option Interest) : Op → Option Interest
  | .addFd other asked => if other = fd then some (interest.getD asked) else interest
  | .deleteFd other => if other = fd then none else interest

/-- The interest that is kept: a descriptor that is registered already keeps its entry. -/
def kept (fd : Nat) (ops : List Op) : Option Interest := ops.foldl (keptStep fd) none

/-- The bits of an entry. -/
def Interest.status (interest : Interest) : Nat :=
  (if interest.read then kRead else 0) ||| (if interest.write then kWrite else 0)

theorem status_read (interest : Interest) :
    interest.status &&& kRead ≠ 0 ↔ interest.read = true := by
  obtain ⟨read, write⟩ := interest
  cases read <;> cases write <;> decide

theorem status_write (interest : Interest) :
    interest.status &&& kWrite ≠ 0 ↔ interest.write = true := by
  obtain ⟨read, write⟩ := interest
  cases read <;> cases write <;> decide

/-- `AddFd` inserts the bits and raises `fd_max_`. -/
theorem perform_addFd (io : Select) (fd : Nat) (interest : Interest) :
    (io.perform (.addFd fd interest)).map = io.map.insert (fd : Int) interest.status ∧
      (io.perform (.addFd fd interest)).fdMax = max io.fdMax fd := by
  obtain ⟨read, write⟩ := interest
  have status_eq : (if write then (if read then 0 ||| kRead else 0) ||| kWrite
      else if read then 0 ||| kRead else 0) = Interest.status ⟨read, write⟩ := by
    cases read <;> cases write <;> rfl
  simp only [perform, addFd, status_eq]
  split
  · rename_i greater
    exact ⟨rfl, (max_eq_right (le_of_lt greater)).symm⟩
  · rename_i smaller
    exact ⟨rfl, (max_eq_left (not_lt.mp smaller)).symm⟩

/-- `DeleteFd` erases the entry, if there is one, and leaves `fd_max_`. -/
theorem perform_deleteFd (io : Select) (fd : Nat) :
    (∀ key, (io.perform (.deleteFd fd)).map.find key = (io.map.erase (fd : Int)).find key) ∧
      (io.perform (.deleteFd fd)).fdMax = io.fdMax := by
  simp only [perform, deleteFd]
  split
  · rename_i missing
    refine ⟨fun key => ?_, rfl⟩
    by_cases same : key = fd
    · rw [same, OrderedMap.find_erase_self, Option.isNone_iff_eq_none.mp missing]
    · exact (OrderedMap.find_erase_of_ne same io.map).symm
  · exact ⟨fun _ => rfl, rfl⟩

/-! ## What the object holds -/

/-- The map holds the kept interest, one step. -/
theorem find_perform {io : Select} {fd : Nat} {interest : Option Interest}
    (held : io.map.find (fd : Int) = interest.map Interest.status) (op : Op) :
    (io.perform op).map.find (fd : Int) = (keptStep fd interest op).map Interest.status := by
  cases op with
  | addFd other asked =>
      rw [(perform_addFd io other asked).1, keptStep]
      by_cases same : other = fd
      · rw [if_pos same, same, OrderedMap.find_insert_self, held]
        cases interest with
        | none => rfl
        | some interest => rfl
      · rw [if_neg same, OrderedMap.find_insert_of_ne (by omega), held]
  | deleteFd other =>
      rw [(perform_deleteFd io other).1, keptStep]
      by_cases same : other = fd
      · rw [if_pos same, same, OrderedMap.find_erase_self, Option.map_none]
      · rw [if_neg same, OrderedMap.find_erase_of_ne (by omega), held]

variable (readSet writeSet : FdSet)

/-- The map holds the kept interest. -/
theorem find_afterOps (ops : List Op) (fd : Nat) :
    (afterOps readSet writeSet ops).map.find (fd : Int) =
      (kept fd ops).map Interest.status := by
  have general : ∀ (ops : List Op) (io : Select) (interest : Option Interest),
      io.map.find (fd : Int) = interest.map Interest.status →
      (ops.foldl perform io).map.find (fd : Int) =
        (ops.foldl (keptStep fd) interest).map Interest.status := by
    intro ops
    induction ops with
    | nil => exact fun _ _ held => held
    | cons op ops ih => exact fun io interest held => ih _ _ (find_perform held op)
  exact general ops _ none rfl

/-- `fd_max_` is the largest descriptor that was ever added. -/
theorem fdMax_afterOps_le_iff (ops : List Op) (most : Nat) :
    (afterOps readSet writeSet ops).fdMax ≤ most ↔
      ∀ fd interest, .addFd fd interest ∈ ops → fd ≤ most := by
  have general : ∀ (ops : List Op) (io : Select),
      (ops.foldl perform io).fdMax ≤ most ↔
        io.fdMax ≤ most ∧ ∀ fd interest, .addFd fd interest ∈ ops → fd ≤ most := by
    intro ops
    induction ops with
    | nil => simp
    | cons op ops ih =>
        intro io
        rw [List.foldl_cons, ih]
        cases op with
        | addFd fd interest =>
            rw [(perform_addFd io fd interest).2, max_le_iff, and_assoc]
            simp only [List.mem_cons, Op.addFd.injEq]
            refine and_congr_right fun _ => ?_
            constructor
            · rintro ⟨first, later⟩ other asked (⟨rfl, -⟩ | mem)
              · exact Int.ofNat_le.mp first
              · exact later other asked mem
            · intro all
              exact ⟨Int.ofNat_le.mpr (all fd interest (Or.inl ⟨rfl, rfl⟩)),
                fun other asked mem => all other asked (Or.inr mem)⟩
        | deleteFd fd =>
            rw [(perform_deleteFd io fd).2]
            simp
  rw [afterOps, general]
  exact and_iff_right (Int.natCast_nonneg most)

theorem fdMax_afterOps_nonneg (ops : List Op) : 0 ≤ (afterOps readSet writeSet ops).fdMax := by
  refine List.foldlRecOn ops perform (motive := fun io => 0 ≤ io.fdMax) ?_ ?_
  · exact Int.le_refl 0
  intro io nonneg op _
  cases op with
  | addFd fd interest =>
      rw [(perform_addFd io fd interest).2]
      exact le_max_of_le_left nonneg
  | deleteFd fd =>
      rw [(perform_deleteFd io fd).2]
      exact nonneg

/-- The keys lie between 0 and `fd_max_`. -/
theorem keys_afterOps (ops : List Op) :
    ∀ entry ∈ (afterOps readSet writeSet ops).map.entries,
      0 ≤ entry.1 ∧ entry.1 ≤ (afterOps readSet writeSet ops).fdMax := by
  refine List.foldlRecOn ops perform
    (motive := fun io => ∀ entry ∈ io.map.entries, 0 ≤ entry.1 ∧ entry.1 ≤ io.fdMax) ?_ ?_
  · intro entry mem
    exact absurd mem List.not_mem_nil
  intro io inside op _ entry mem
  cases op with
  | addFd fd interest =>
      rw [(perform_addFd io fd interest).1] at mem
      rw [(perform_addFd io fd interest).2]
      rcases OrderedMap.mem_entries_of_mem_insert mem with rfl | old
      · exact ⟨Int.natCast_nonneg fd, le_max_right _ _⟩
      · exact ⟨(inside entry old).1, le_max_of_le_left (inside entry old).2⟩
  | deleteFd fd =>
      rw [(perform_deleteFd io fd).2]
      have found := OrderedMap.find_eq_some_iff.mpr mem
      rw [(perform_deleteFd io fd).1] at found
      have held := OrderedMap.find_eq_some_iff.mp found
      exact inside entry (OrderedMap.mem_entries_erase_iff.mp held).1

/-- What is marked is what the kept interest asks for. -/
theorem marked_afterOps (ops : List Op) (fd : Nat) :
    (Marked kRead (afterOps readSet writeSet ops).map.entries fd ↔
      (kept fd ops).any Interest.read = true) ∧
      (Marked kWrite (afterOps readSet writeSet ops).map.entries fd ↔
        (kept fd ops).any Interest.write = true) := by
  have found := find_afterOps readSet writeSet ops fd
  have marked_iff (flag : Nat) : Marked flag (afterOps readSet writeSet ops).map.entries fd ↔
      ∃ interest, kept fd ops = some interest ∧ interest.status &&& flag ≠ 0 := by
    simp only [Marked, ← OrderedMap.find_eq_some_iff, found, Option.map_eq_some_iff]
    constructor
    · rintro ⟨_, ⟨interest, held, rfl⟩, bit⟩
      exact ⟨interest, held, bit⟩
    · rintro ⟨interest, held, bit⟩
      exact ⟨_, ⟨interest, held, rfl⟩, bit⟩
  rw [marked_iff, marked_iff]
  cases kept fd ops with
  | none => simp
  | some interest => simp [status_read, status_write]

/-! ## Reports -/

variable (ready : Readiness) (endless : Bool) (timeOutMs : Nat) (ops : List Op) (fd : Nat)

/-- All indices fit into the sets, and after a `Dispatch` that succeeds, `FdCheck` tells whether the
latest interest in the descriptor is met. -/
structure Reports : Prop where
  marked : ∀ index, Marked kRead (afterOps readSet writeSet ops).map.entries index ∨
    Marked kWrite (afterOps readSet writeSet ops).map.entries index →
      0 ≤ index ∧ index < fdSetSize
  checked : fd < fdSetSize
  told : ∀ value after, (afterOps readSet writeSet ops).Dispatches ready endless timeOutMs value
    after → 0 ≤ value →
      ((after.fdCheck fd).1 = true ↔
        (latest fd ops).any Interest.read = true ∧ ready.readAble fd = true) ∧
      ((after.fdCheck fd).2 = true ↔
        (latest fd ops).any Interest.write = true ∧ ready.writeAble fd = true)

/-- One direction of a descriptor: where it is ready, the kept interest is the latest one; and where
no descriptor but 0 was ever added, what is kept is ready. -/
def Straight (kept latest able : Bool) : Prop :=
  (able = true → kept = latest) ∧
    ((∀ other interest, .addFd other interest ∈ ops → other = 0) → kept = true → able = true)

/-- A history that leads nobody astray. -/
structure Clear : Prop where
  added : ∀ other interest, .addFd other interest ∈ ops → other < fdSetSize
  checked : fd < fdSetSize
  read : Straight ops ((kept fd ops).any Interest.read) ((latest fd ops).any Interest.read)
    (ready.readAble fd)
  write : Straight ops ((kept fd ops).any Interest.write) ((latest fd ops).any Interest.write)
    (ready.writeAble fd)

variable {ready endless timeOutMs ops fd}

/-- `FdCheck` is right about one direction where only ready descriptors of the sets are left. -/
theorem straight_of_ne {kept latest able : Bool}
    (used : ¬∀ other interest, .addFd other interest ∈ ops → other = 0) :
    (kept = true ∧ able = true ↔ latest = true ∧ able = true) ↔ Straight ops kept latest able := by
  rw [Straight, and_iff_left (fun zero => absurd zero used)]
  cases kept <;> cases latest <;> cases able <;> decide

/-- `FdCheck` is right about one direction where the sets are left as they were filled. -/
theorem straight_of_eq {kept latest able : Bool}
    (unused : ∀ other interest, .addFd other interest ∈ ops → other = 0) :
    (kept = true ↔ latest = true ∧ able = true) ↔ Straight ops kept latest able := by
  rw [Straight, forall_prop_of_true unused]
  cases kept <;> cases latest <;> cases able <;> decide

/-- After a `Dispatch` within the sets, what `FdCheck` tells is right or wrong by direction. -/
theorem told_iff {value : Int} {after : Select}
    (dispatched : (afterOps readSet writeSet ops).dispatch ready endless timeOutMs =
      some (value, after)) :
    (((after.fdCheck fd).1 = true ↔
        (latest fd ops).any Interest.read = true ∧ ready.readAble fd = true) ∧
      ((after.fdCheck fd).2 = true ↔
        (latest fd ops).any Interest.write = true ∧ ready.writeAble fd = true)) ↔
      Straight ops ((kept fd ops).any Interest.read) ((latest fd ops).any Interest.read)
          (ready.readAble fd) ∧
        Straight ops ((kept fd ops).any Interest.write) ((latest fd ops).any Interest.write)
          (ready.writeAble fd) := by
  obtain ⟨read_marked, write_marked⟩ := marked_afterOps readSet writeSet ops fd
  have zero_iff := fdMax_afterOps_le_iff readSet writeSet ops 0
  have nonneg := fdMax_afterOps_nonneg readSet writeSet ops
  simp only [Nat.le_zero] at zero_iff
  by_cases unused : (afterOps readSet writeSet ops).fdMax = 0
  · have zero := zero_iff.mp unused.le
    obtain ⟨read_iff, write_iff⟩ := fdCheck_dispatch_of_eq unused dispatched fd
    rw [read_iff, write_iff, read_marked, write_marked, straight_of_eq zero, straight_of_eq zero]
  · have used : ¬∀ other interest, .addFd other interest ∈ ops → other = 0 := fun zero =>
      unused (le_antisymm (zero_iff.mpr zero) nonneg)
    have inside {flag : Nat}
        (marked : Marked flag (afterOps readSet writeSet ops).map.entries fd) :
        (0 : Int) ≤ fd ∧ (fd : Int) < (afterOps readSet writeSet ops).fdMax + 1 := by
      obtain ⟨fdStatus, mem, -⟩ := marked
      have between := keys_afterOps readSet writeSet ops _ mem
      exact ⟨between.1, Int.lt_add_one_of_le between.2⟩
    obtain ⟨read_iff, write_iff⟩ := fdCheck_dispatch_of_ne unused dispatched fd
    rw [← straight_of_ne used, ← straight_of_ne used, ← read_marked, ← write_marked, read_iff,
      write_iff, and_congr_right fun marked => and_iff_left (inside marked),
      and_congr_right fun marked => and_iff_left (inside marked)]

theorem fits_iff : (afterOps readSet writeSet ops).fdMax < fdSetSize ↔
    ∀ other interest, .addFd other interest ∈ ops → other < fdSetSize := by
  have le_iff := fdMax_afterOps_le_iff readSet writeSet ops 1023
  simp only [fdSetSize, Nat.lt_succ_iff, ← le_iff]
  omega

theorem clear_of_reports
    (returns : ∃ value after, 0 ≤ value ∧
      (afterOps readSet writeSet ops).Dispatches ready endless timeOutMs value after)
    (reports : Reports readSet writeSet ready endless timeOutMs ops fd) : Clear ready ops fd := by
  have fits : (afterOps readSet writeSet ops).fdMax < fdSetSize := by
    by_contra beyond
    -- Nothing is known of the sets, so both answers are possible.
    have free (set : FdSet) := reports.told 0 (construct set set)
      (fun fits => absurd fits beyond) (Int.le_refl 0)
    have met := (free fun _ => true).1.mp rfl
    exact Bool.false_ne_true ((free fun _ => false).1.mpr met)
  obtain ⟨value, after, nonneg, dispatches⟩ := returns
  obtain ⟨read, write⟩ := (told_iff readSet writeSet (dispatches fits)).mp
    (reports.told value after dispatches nonneg)
  exact ⟨(fits_iff readSet writeSet).mp fits, reports.checked, read, write⟩

theorem reports_of_clear (clear : Clear ready ops fd) :
    Reports readSet writeSet ready endless timeOutMs ops fd := by
  have fits := (fits_iff readSet writeSet).mpr clear.added
  refine ⟨?_, clear.checked, ?_⟩
  · intro index marked
    obtain ⟨fdStatus, mem⟩ : ∃ fdStatus,
        (index, fdStatus) ∈ (afterOps readSet writeSet ops).map.entries := by
      rcases marked with ⟨fdStatus, mem, -⟩ | ⟨fdStatus, mem, -⟩
      · exact ⟨fdStatus, mem⟩
      · exact ⟨fdStatus, mem⟩
    have between := keys_afterOps readSet writeSet ops _ mem
    exact ⟨between.1, lt_of_le_of_lt between.2 fits⟩
  · intro value after dispatches _
    exact (told_iff readSet writeSet (dispatches fits)).mpr ⟨clear.read, clear.write⟩

/-- The `select` build reports a descriptor correctly exactly after the histories that are
`Clear`. -/
theorem reports_iff (readSet writeSet : FdSet) (ready : Readiness) (endless : Bool)
    (timeOutMs : Nat) (ops : List Op) (fd : Nat)
    (returns : ∃ value after, 0 ≤ value ∧
      (afterOps readSet writeSet ops).Dispatches ready endless timeOutMs value after) :
    Reports readSet writeSet ready endless timeOutMs ops fd ↔ Clear ready ops fd :=
  ⟨clear_of_reports readSet writeSet returns, reports_of_clear readSet writeSet⟩

/-- Everything is ready. -/
def allReady : Readiness where
  order := []
  readAble _ := true
  writeAble _ := true

theorem reports_iff_registered :
    Reports zeroed zeroed allReady false 0 [.addFd 5 ⟨true, false⟩] 5 := by
  refine (reports_iff zeroed zeroed allReady false 0 [.addFd 5 ⟨true, false⟩] 5
    ⟨_, _, by decide, fun _ => rfl⟩).mpr ⟨?_, by decide, ⟨fun _ => rfl, fun _ _ => rfl⟩,
      ⟨fun _ => rfl, fun _ _ => rfl⟩⟩
  intro other interest mem
  obtain ⟨rfl, -⟩ := Op.addFd.inj (List.mem_singleton.mp mem)
  decide

/-- Reading is asked for first, and then reading and writing. -/
def askedTwice : List Op := [.addFd 5 ⟨true, false⟩, .addFd 5 ⟨true, true⟩]

theorem askedTwice_returns : ∃ value after, 0 ≤ value ∧
    (afterOps zeroed zeroed askedTwice).Dispatches allReady false 0 value after :=
  ⟨_, _, by decide, fun _ => rfl⟩

/-- The second interest is lost. -/
theorem askedTwice_misreported :
    ¬ ∀ (readSet writeSet : FdSet) (ready : Readiness) (endless : Bool) (timeOutMs : Nat)
      (ops : List Op) (fd : Nat),
      (∃ value after, 0 ≤ value ∧
        (afterOps readSet writeSet ops).Dispatches ready endless timeOutMs value after) →
      Reports readSet writeSet ready endless timeOutMs ops fd := by
  intro reports
  have clear := clear_of_reports zeroed zeroed askedTwice_returns
    (reports zeroed zeroed allReady false 0 askedTwice 5 askedTwice_returns)
  exact absurd (clear.write.1 rfl) (by decide)

end Select
end IoMultiplexing
end NetworkBase
