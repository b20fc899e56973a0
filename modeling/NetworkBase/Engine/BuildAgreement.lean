import NetworkBase.Engine.Multiplexing

/-!
# The builds compared

The `select` build reports what is registered and ready.  The `epoll` build refuses to register
anything once it is initialised, so its interest list stays empty, and `epoll_wait` has no room for
an event.
-/

namespace NetworkBase
namespace IoMultiplexing

/-! ## The `select` build -/

/-- Where `select` returns, it reports no error, and the ready descriptors of its sets. -/
theorem select_eq_some {ready : Readiness} {nfds value : Int} {readSet writeSet read write : FdSet}
    {timeout : Option Timeval}
    (returns : select ready nfds readSet writeSet timeout = some (value, read, write)) :
    0 ≤ value ∧
      (∀ fd, read fd = true ↔
        readSet fd = true ∧ ready.readAble fd = true ∧ 0 ≤ fd ∧ fd < nfds) ∧
      (∀ fd, write fd = true ↔
        writeSet fd = true ∧ ready.writeAble fd = true ∧ 0 ≤ fd ∧ fd < nfds) := by
  rw [select] at returns
  split_ifs at returns
  cases returns
  refine ⟨Int.natCast_nonneg _, ?_, ?_⟩
  · intro fd
    simp [and_assoc]
  · intro fd
    simp [and_assoc]

namespace Select

variable {io after : Select} {fd : Int}

/-- The descriptor is among the entries, and its status has a bit of `flag`. -/
def Marked (flag : Nat) (entries : List (Int × Nat)) (fd : Int) : Prop :=
  ∃ fdStatus, (fd, fdStatus) ∈ entries ∧ fdStatus &&& flag ≠ 0

theorem marked_cons {flag other : Nat} {key : Int} {entries : List (Int × Nat)} :
    Marked flag ((key, other) :: entries) fd ↔
      fd = key ∧ other &&& flag ≠ 0 ∨ Marked flag entries fd := by
  constructor
  · rintro ⟨fdStatus, mem, marked⟩
    rcases List.mem_cons.mp mem with same | later
    · cases same
      exact Or.inl ⟨rfl, marked⟩
    · exact Or.inr ⟨fdStatus, later, marked⟩
  · rintro (⟨rfl, marked⟩ | ⟨fdStatus, later, marked⟩)
    · exact ⟨other, List.mem_cons_self, marked⟩
    · exact ⟨fdStatus, List.mem_cons_of_mem _ later, marked⟩

/-- `FD_SET` under a condition. -/
theorem update_iff (set : FdSet) (key : Int) (marked : Prop) [Decidable marked] :
    (if marked then Function.update set key true else set) fd = true ↔
      set fd = true ∨ fd = key ∧ marked := by
  by_cases same : fd = key
  · subst same
    split_ifs with holds
    · simp [holds]
    · simp [holds]
  · split_ifs <;> simp [same]

/-- The loop of `Dispatch` sets the bits of the registered descriptors. -/
theorem fillSets_iff (entries : List (Int × Nat)) (sets : FdSet × FdSet) (fd : Int) :
    ((fillSets entries sets).1 fd = true ↔ sets.1 fd = true ∨ Marked kRead entries fd) ∧
      ((fillSets entries sets).2 fd = true ↔ sets.2 fd = true ∨ Marked kWrite entries fd) := by
  induction entries generalizing sets with
  | nil => exact ⟨⟨Or.inl, fun set => set.resolve_right nofun⟩,
      ⟨Or.inl, fun set => set.resolve_right nofun⟩⟩
  | cons entry entries ih =>
      obtain ⟨key, fdStatus⟩ := entry
      obtain ⟨readSet, writeSet⟩ := sets
      rw [fillSets]
      constructor
      · rw [(ih _).1, update_iff, marked_cons, or_assoc]
      · rw [(ih _).2, update_iff, marked_cons, or_assoc]

section Dispatch

variable {ready : Readiness} {endless : Bool} {timeOutMs : Nat} {value : Int}

/-- Above descriptor 0, `Dispatch` leaves the registered descriptors that are ready. -/
theorem fdCheck_dispatch_of_ne (used : io.fdMax ≠ 0)
    (dispatched : io.dispatch ready endless timeOutMs = some (value, after)) (fd : Int) :
    ((after.fdCheck fd).1 = true ↔ Marked kRead io.map.entries fd ∧ ready.readAble fd = true ∧
        0 ≤ fd ∧ fd < io.fdMax + 1) ∧
      ((after.fdCheck fd).2 = true ↔ Marked kWrite io.map.entries fd ∧
        ready.writeAble fd = true ∧ 0 ≤ fd ∧ fd < io.fdMax + 1) := by
  have sets := fillSets_iff io.map.entries (fun _ => false, fun _ => false) fd
  simp only [Bool.false_eq_true, false_or] at sets
  rw [dispatch] at dispatched
  simp only [if_neg used, Option.bind_eq_bind, Option.bind_eq_some_iff] at dispatched
  obtain ⟨⟨answer, read, write⟩, returns, final⟩ := dispatched
  cases final
  obtain ⟨-, read_iff, write_iff⟩ := select_eq_some returns
  simp only [fdCheck, read_iff, write_iff, sets, and_self]

/-- Where `fd_max_` is 0, `Dispatch` leaves what is registered, ready or not. -/
theorem fdCheck_dispatch_of_eq (unused : io.fdMax = 0)
    (dispatched : io.dispatch ready endless timeOutMs = some (value, after)) (fd : Int) :
    ((after.fdCheck fd).1 = true ↔ Marked kRead io.map.entries fd) ∧
      ((after.fdCheck fd).2 = true ↔ Marked kWrite io.map.entries fd) := by
  have sets := fillSets_iff io.map.entries (fun _ => false, fun _ => false) fd
  simp only [Bool.false_eq_true, false_or] at sets
  rw [dispatch] at dispatched
  simp only [if_pos unused, Option.bind_eq_bind, Option.bind_eq_some_iff] at dispatched
  obtain ⟨answer, -, final⟩ := dispatched
  cases final
  exact sets

end Dispatch

end Select

/-! ## Both builds -/

/-- The descriptors that the program may use. -/
abbrev Fd := {fd : Int // 1 ≤ fd ∧ fd ≤ 1023}

/-- A call into `IoMultiplexing`. -/
inductive Call
  | addFd (fd : Fd) (read write : Bool)
  | deleteFd (fd : Fd)
  | dispatch (ready : Readiness) (endless : Bool) (timeOutMs : Nat)
  | fdCheck (fd : Fd)

/-- Both builds answer every call alike; `dispatched` says that the latest `Dispatch` succeeded. -/
def Agree : Bool → List Call → Select → Epoll → Prop
  | _, [], _, _ => True
  | dispatched, .addFd fd read write :: calls, select, epoll =>
      ((select.addFd fd read write).1 < 0 ↔ (epoll.addFd fd read write).1 < 0) ∧
        Agree dispatched calls (select.addFd fd read write).2 (epoll.addFd fd read write).2
  | dispatched, .deleteFd fd :: calls, select, epoll =>
      ((select.deleteFd fd).1 < 0 ↔ (epoll.deleteFd fd).1 < 0) ∧
        Agree dispatched calls (select.deleteFd fd).2 (epoll.deleteFd fd).2
  | _, .dispatch ready endless timeOutMs :: calls, select, epoll =>
      match select.dispatch ready endless timeOutMs, epoll.dispatch ready endless timeOutMs with
      | some (value, select), some (other, epoll) =>
          (value < 0 ↔ other < 0) ∧ Agree (decide (0 ≤ value)) calls select epoll
      | some (value, _), none => 0 ≤ value
      | none, some (other, _) => 0 ≤ other
      | none, none => True
  | dispatched, .fdCheck fd :: calls, select, epoll =>
      (dispatched = true → epoll.fdCheck fd = some (select.fdCheck fd)) ∧
        Agree dispatched calls select epoll

/-- A call that registers nothing and waits for nothing. -/
def Call.Idle : Call → Prop
  | .deleteFd _ | .fdCheck _ => True
  | .addFd .. | .dispatch .. => False

/-- An initialised epoll object that has nothing registered. -/
structure Epoll.Barren (io : Epoll) : Prop where
  init : io.init = true
  interest : io.interest = OrderedMap.empty
  fdNum : io.fdNum = 0

namespace Epoll.Barren

variable {io : Epoll}

theorem addFd (barren : io.Barren) (fd : Int) (read write : Bool) :
    io.addFd fd read write = (-1, io) := if_pos barren.init

theorem deleteFd (barren : io.Barren) (fd : Int) : io.deleteFd fd = (-1, io) := by
  have unknown : io.interest.find fd = none := by
    rw [barren.interest]
    rfl
  simp [Epoll.deleteFd, epollCtlDel, barren.init, unknown]

theorem dispatch (barren : io.Barren) (ready : Readiness) (endless : Bool) (timeOutMs : Nat) :
    ∃ after, io.dispatch ready endless timeOutMs = some (-1, after) := by
  have full : io.fdNum.toBitVec.toInt ≤ 0 := by
    rw [barren.fdNum]
    decide
  simp [Epoll.dispatch, epollWait, barren.init, full]

end Epoll.Barren

theorem Select.dispatch_nonneg {io after : Select} {ready : Readiness} {endless : Bool}
    {timeOutMs : Nat} {value : Int}
    (dispatched : io.dispatch ready endless timeOutMs = some (value, after)) : 0 ≤ value := by
  rw [dispatch] at dispatched
  by_cases unused : io.fdMax = 0
  · simp only [if_pos unused, Option.bind_eq_bind, Option.bind_eq_some_iff] at dispatched
    obtain ⟨answer, returns, final⟩ := dispatched
    cases final
    exact (select_eq_some returns).1
  · simp only [if_neg unused, Option.bind_eq_bind, Option.bind_eq_some_iff] at dispatched
    obtain ⟨answer, returns, final⟩ := dispatched
    cases final
    exact (select_eq_some returns).1

/-- While nothing is registered, the builds agree exactly on the calls that are idle. -/
theorem agree_iff_idle {select : Select} {epoll : Epoll} (calls : List Call)
    (empty : select.map = OrderedMap.empty) (barren : epoll.Barren) :
    Agree false calls select epoll ↔ ∀ call ∈ calls, call.Idle := by
  induction calls with
  | nil => exact ⟨fun _ => nofun, fun _ => trivial⟩
  | cons call calls ih =>
      rw [List.forall_mem_cons]
      cases call with
      | addFd fd read write =>
          refine iff_of_false ?_ And.left
          rintro ⟨alike, -⟩
          rw [barren.addFd] at alike
          have refused : (0 : Int) < 0 := alike.mpr (by decide : (-1 : Int) < 0)
          exact absurd refused (by decide)
      | dispatch ready endless timeOutMs =>
          refine iff_of_false ?_ And.left
          intro agree
          obtain ⟨after, refused⟩ := barren.dispatch ready endless timeOutMs
          rw [Agree, refused] at agree
          cases answer : select.dispatch ready endless timeOutMs with
          | none =>
              rw [answer] at agree
              have accepted : (0 : Int) ≤ -1 := agree
              exact absurd accepted (by decide)
          | some result =>
              obtain ⟨value, next⟩ := result
              rw [answer] at agree
              have := Select.dispatch_nonneg answer
              have := agree.1.mpr (by decide)
              omega
      | deleteFd fd =>
          have unknown : select.deleteFd fd = (-1, select) := by
            rw [Select.deleteFd, if_pos]
            rw [empty]
            rfl
          rw [Agree, unknown, barren.deleteFd, ih]
          exact ⟨fun agree => ⟨trivial, agree.2⟩, fun idle => ⟨Iff.rfl, idle.2⟩⟩
      | fdCheck fd =>
          rw [Agree, ih]
          exact ⟨fun agree => ⟨trivial, agree.2⟩, fun idle => ⟨nofun, idle.2⟩⟩

/-- From initialised objects on, the builds agree exactly on the sequences that never register a
descriptor and never wait. -/
theorem builds_agree_iff (calls : List Call) (readSet writeSet : FdSet) (epoll : Int)
    (events : List EpollEvent) (created : 0 < epoll) :
    Agree false calls (Select.construct readSet writeSet) (Epoll.construct epoll events) ↔
      ∀ call ∈ calls, call.Idle :=
  agree_iff_idle calls rfl ⟨decide_eq_true created, rfl, rfl⟩

/-- The sets of a new object, were they zeroed. -/
def zeroed : FdSet := fun _ => false

theorem builds_agree_iff_unregistered :
    Agree false [.deleteFd ⟨5, by decide⟩, .fdCheck ⟨5, by decide⟩]
        (Select.construct zeroed zeroed) (Epoll.construct 3 []) ↔
      ∀ call ∈ [Call.deleteFd ⟨5, by decide⟩, .fdCheck ⟨5, by decide⟩], call.Idle :=
  builds_agree_iff _ zeroed zeroed 3 [] (by decide)

/-- Registering one descriptor succeeds over `select` and fails over `epoll`. -/
theorem register_disagrees :
    ((Select.construct zeroed zeroed).addFd 5 true false).1 = 0 ∧
      ((Epoll.construct 3 []).addFd 5 true false).1 = -1 ∧
      ¬Agree false [.addFd ⟨5, by decide⟩ true false] (Select.construct zeroed zeroed)
        (Epoll.construct 3 []) := by
  refine ⟨rfl, rfl, ?_⟩
  rintro ⟨alike, -⟩
  have refused : (0 : Int) < 0 := alike.mpr (by decide : (-1 : Int) < 0)
  exact absurd refused (by decide)

end IoMultiplexing
end NetworkBase
