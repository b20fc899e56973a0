import NetworkBase.Tool.ByteQueue

/-!
# How the buffer grows

Only the third path of `AddTailData` changes the capacity, and it is taken exactly where the unread
bytes and the new ones exceed it.  The size of the new allocation is computed with a shift in a
32-bit `int`, which bounds how much may be queued.
-/

namespace NetworkBase
namespace AutoGrowBuffer

variable {data : CharSpan} {buffer after : AutoGrowBuffer} {result : Int}

/-- `AddTailData` takes its third path. -/
def Reallocates (data : CharSpan) (buffer : AutoGrowBuffer) : Prop :=
  (data.nonEmpty = true ∧ data.len ≤ kMaxLen) ∧
    buffer.trueLen < buffer.currentEndPosition + data.len ∧
    buffer.trueLen - buffer.currentEndPosition + buffer.currentBeginPosition < data.len

/-- The allocation is too small for what is unread and what is added. -/
theorem reallocates_iff (wf : buffer.WellFormed) :
    Reallocates data buffer ↔
      (data.nonEmpty = true ∧ data.len ≤ kMaxLen) ∧
        buffer.trueLen < buffer.unread.length + data.len := by
  have unread_length := wf.unread_length
  have begin_le_end := wf.begin_le_end
  have end_le_len := wf.end_le_len
  refine and_congr_right fun _ => ?_
  omega

theorem trueLen_of_slide (execution : buffer.slide = some after) :
    after.trueLen = buffer.trueLen := by
  obtain ⟨kept, -, execution⟩ := Option.bind_eq_some_iff.mp execution
  obtain ⟨trueBuf, -, execution⟩ := Option.bind_eq_some_iff.mp execution
  rw [← Option.some.inj execution]

theorem trueLen_of_reallocate {len : Nat} (execution : buffer.reallocate len = some after) :
    getReallocLen (buffer.currentEndPosition - buffer.currentBeginPosition + len) =
      some after.trueLen := by
  obtain ⟨newLen, newLen_eq, execution⟩ := Option.bind_eq_some_iff.mp execution
  obtain ⟨kept, -, execution⟩ := Option.bind_eq_some_iff.mp execution
  obtain ⟨trueBuf, -, execution⟩ := Option.bind_eq_some_iff.mp execution
  rw [← Option.some.inj execution]
  exact newLen_eq

/-- Once the new bytes are accepted, the capacity is the one that the three paths leave. -/
theorem trueLen_of_accepted (accepted : data.nonEmpty = true ∧ data.len ≤ kMaxLen)
    (execution : addTailData data buffer = some (result, after)) :
    ∃ roomy, buffer.makeRoom data.len = some roomy ∧ after.trueLen = roomy.trueLen := by
  rw [addTailData, if_neg (not_not.mpr accepted.1), if_neg (Nat.not_lt.mpr accepted.2)]
    at execution
  obtain ⟨roomy, made, execution⟩ := Option.bind_eq_some_iff.mp execution
  obtain ⟨trueBuf, -, execution⟩ := Option.bind_eq_some_iff.mp execution
  obtain ⟨-, rfl⟩ := Prod.mk.inj (Option.some.inj execution)
  exact ⟨roomy, made, rfl⟩

/-- A call that reallocates leaves the capacity it computes. -/
theorem trueLen_of_reallocates (reallocates : Reallocates data buffer)
    (execution : addTailData data buffer = some (result, after)) :
    getReallocLen (buffer.getSize + data.len) = some after.trueLen := by
  obtain ⟨accepted, no_tail, no_room⟩ := reallocates
  obtain ⟨roomy, made, len_eq⟩ := trueLen_of_accepted accepted execution
  rw [makeRoom, if_neg (Nat.not_le.mpr no_tail), if_neg (Nat.not_le.mpr no_room)] at made
  rw [len_eq]
  exact trueLen_of_reallocate made

/-- Every other call keeps the capacity. -/
theorem trueLen_of_not_reallocates (stays : ¬Reallocates data buffer)
    (execution : addTailData data buffer = some (result, after)) :
    after.trueLen = buffer.trueLen := by
  by_cases accepted : data.nonEmpty = true ∧ data.len ≤ kMaxLen
  · obtain ⟨roomy, made, len_eq⟩ := trueLen_of_accepted accepted execution
    rw [len_eq]
    rw [makeRoom] at made
    split at made
    · rw [Option.some.inj made]
    · rename_i no_tail
      split at made
      · exact trueLen_of_slide made
      · rename_i no_room
        exact absurd ⟨accepted, Nat.not_le.mp no_tail, Nat.not_le.mp no_room⟩ stays
  · rw [addTailData_refused accepted] at execution
    obtain ⟨-, rfl⟩ := Prod.mk.inj (Option.some.inj execution)
    rfl

/-! ## Calls -/

/-- A call that reallocates computes a size that is defined and large enough. -/
def Call.Grows : Call → Observed → Prop
  | .addTailData data, observed =>
      Reallocates data observed.buffer →
        ∃ newLen, getReallocLen (observed.buffer.getSize + data.len) = some newLen ∧
          observed.buffer.getSize + data.len ≤ newLen
  | .popHeadData _, _ => True
  | .getSize, _ => True

/-- After the call the queue holds at most so many bytes. -/
def Call.Holds (most : Nat) (call : Call) (state : List UInt8 × List Outcome) : Prop :=
  (queueStep call state).1.length ≤ most

/-! ## The shift -/

/-- The size of a new allocation is computed without overflow where the queue then holds at most
`2 ^ 30` bytes, and only there. -/
theorem grows_iff_holds {call : Call} {observed : Observed} {state : List UInt8 × List Outcome}
    (represents : Represents observed state) :
    call.Grows observed ↔ call.Holds (2 ^ 30) state := by
  have wf := represents.wellFormed
  have queue_le := wf.unread_le.trans wf.trueLen_le
  rw [represents.unread_eq] at queue_le
  cases call with
  | addTailData data =>
      rw [Call.Grows, Call.Holds, queueStep, queuePerform_addTailData, List.length_append,
        reallocates_iff wf, wf.getSize_eq, represents.unread_eq]
      by_cases accepted : data.nonEmpty = true ∧ data.len ≤ kMaxLen
      · rw [added, if_pos accepted, (CharSpan.content_length_of_nonEmpty accepted.1).1]
        have room (fits : state.1.length + data.len ≤ 2 ^ 30) := room_of_le wf accepted.2
          (represents.unread_eq ▸ fits)
        rw [represents.unread_eq] at room
        constructor
        · intro grows
          by_contra overflow
          have trueLen_le := wf.trueLen_le
          obtain ⟨newLen, newLen_eq, -⟩ := grows ⟨accepted, by omega⟩
          have small := (getReallocLen_isSome_iff _).mp (Option.isSome_of_eq_some newLen_eq)
          omega
        · rintro fits ⟨-, beyond⟩
          have small : state.1.length + data.len < 2 ^ 30 :=
            (room fits).resolve_left (Nat.not_le.mpr beyond)
          obtain ⟨newLen, newLen_eq⟩ :=
            Option.isSome_iff_exists.mp ((getReallocLen_isSome_iff _).mpr small)
          exact ⟨newLen, newLen_eq, (getReallocLen_spec newLen_eq).1.le⟩
      · rw [added, if_neg accepted]
        exact iff_of_true (fun reallocates => absurd reallocates.1 accepted) queue_le
  | popHeadData callback =>
      refine iff_of_true trivial ?_
      rw [Call.Holds, queueStep, queuePerform_popHeadData, List.length_drop]
      exact (Nat.sub_le _ _).trans queue_le
  | getSize => exact iff_of_true trivial queue_le

theorem holds_of_grows {defaultLen : Nat} {calls : List Call}
    (grows : PartialRun.Guarded Observed.step Call.Grows calls (Observed.start defaultLen)) :
    PartialRun.Guarded (fun call state => some (queueStep call state)) (Call.Holds (2 ^ 30)) calls
      ([], []) := by
  refine PartialRun.guarded_abstract queueStep ?_ (start_represents defaultLen) grows
  intro call observed state represents grows
  have holds := (grows_iff_holds represents).mp grows
  exact ⟨holds, step_represents_of_le represents holds⟩

theorem grows_of_holds {defaultLen : Nat} {calls : List Call}
    (holds : PartialRun.Guarded (fun call state => some (queueStep call state))
      (Call.Holds (2 ^ 30)) calls ([], [])) :
    PartialRun.Guarded Observed.step Call.Grows calls (Observed.start defaultLen) := by
  refine PartialRun.guarded_of_abstract queueStep ?_ (start_represents defaultLen) holds
  intro call observed state represents holds
  obtain ⟨after, execution, simulates⟩ := step_represents_of_le represents holds
  refine ⟨(grows_iff_holds represents).mpr holds, ?_⟩
  intro next first
  obtain rfl := Option.some.inj (execution.symm.trans first)
  exact simulates

/-- `GetReallocLen` computes the size of every new allocation correctly if and only if the calls
never queue more than `2 ^ 30` bytes. -/
theorem grows_iff (defaultLen : Nat) (calls : List Call) :
    PartialRun.Guarded Observed.step Call.Grows calls (Observed.start defaultLen) ↔
      PartialRun.Guarded (fun call state => some (queueStep call state)) (Call.Holds (2 ^ 30)) calls
        ([], []) :=
  ⟨holds_of_grows, grows_of_holds⟩

/-- A call that adds as much as one call may. -/
def addMebibyte : Call := .addTailData (.bytes (List.replicate kMaxLen 0))

/-- The calls of `addMebibyte` add up. -/
theorem length_of_addMebibytes {count : Nat} {state : List UInt8 × List Outcome}
    (initial : state.1.length ≤ 2 ^ 30)
    (holds : PartialRun.Guarded (fun call state => some (queueStep call state))
      (Call.Holds (2 ^ 30)) (List.replicate count addMebibyte) state) :
    state.1.length + count * kMaxLen ≤ 2 ^ 30 := by
  induction count generalizing state with
  | zero => omega
  | succ count ih =>
      obtain ⟨first, later⟩ := holds
      have total := ih first (later _ rfl)
      have short : (List.replicate kMaxLen (0 : UInt8)).length ≤ kMaxLen :=
        List.length_replicate.le
      rw [queueStep, addMebibyte, queuePerform_addTailData, List.length_append,
        (added_of_length_le short).1, List.length_replicate] at total
      rw [Nat.succ_mul]
      omega

/-- The 1025th mebibyte overflows the shift. -/
theorem mebibytes_overflow :
    ¬ ∀ (defaultLen : Nat) (calls : List Call),
      PartialRun.Guarded Observed.step Call.Grows calls (Observed.start defaultLen) := by
  intro grows
  have total := length_of_addMebibytes (Nat.zero_le _)
    (holds_of_grows (grows 0 (List.replicate 1025 addMebibyte)))
  exact absurd total (by decide)

/-! ## The capacity over a run -/

/-- What a call does to the capacity in a run whose queue never holds more than `peak` bytes. -/
structure CapacityStep (initial peak : Nat) (call : Call) (before after : AutoGrowBuffer) :
    Prop where
  mono : before.trueLen ≤ after.trueLen
  shape : after.trueLen = initial ∨ ∃ power, after.trueLen = 2 ^ power
  bounded : after.trueLen ≤ max initial (2 * peak)
  larger : ∀ data, call = .addTailData data → Reallocates data before →
    before.trueLen < after.trueLen ∧ after.getSize < after.trueLen
  kept : (∀ data, call = .addTailData data → ¬Reallocates data before) →
    after.trueLen = before.trueLen
  spared : peak ≤ initial → ∀ data, call = .addTailData data → ¬Reallocates data before

/-- The call is defined, and the capacity stays within its bounds. -/
def Call.Capacious (initial peak : Nat) (call : Call) (observed : Observed) : Prop :=
  ∃ after, Observed.step call observed = some after ∧
    CapacityStep initial peak call observed.buffer after.buffer

/-- What holds of the capacity between the calls. -/
structure Peaked (initial peak : Nat) (observed : Observed) (state : List UInt8 × List Outcome) :
    Prop where
  represents : Represents observed state
  initial_le : initial ≤ observed.buffer.trueLen
  shape : observed.buffer.trueLen = initial ∨ ∃ power, observed.buffer.trueLen = 2 ^ power
  bounded : observed.buffer.trueLen ≤ max initial (2 * peak)

theorem trueLen_of_consume (popLen : Int) (buffer : AutoGrowBuffer) :
    (buffer.consume popLen).2.trueLen = buffer.trueLen := by
  simp only [consume]
  split
  · rfl
  · rfl

theorem trueLen_of_popHeadData {ω : Type} {popData : List UInt8 → ω → Option (Int × ω)}
    {world next : ω} (execution : buffer.popHeadData popData world = some (result, after, next)) :
    after.trueLen = buffer.trueLen := by
  obtain ⟨offer, -, execution⟩ := Option.bind_eq_some_iff.mp execution
  obtain ⟨⟨popLen, world⟩, -, consumed⟩ := Option.bind_eq_some_iff.mp execution
  obtain ⟨-, after_eq⟩ := Prod.mk.inj (Option.some.inj consumed)
  rw [← (Prod.mk.inj after_eq).1]
  exact trueLen_of_consume popLen buffer

/-- A call reallocates, or it keeps the capacity. -/
theorem trueLen_of_step {call : Call} {observed next : Observed}
    (execution : Observed.step call observed = some next) :
    (∃ data, call = .addTailData data ∧ Reallocates data observed.buffer ∧
      getReallocLen (observed.buffer.getSize + data.len) = some next.buffer.trueLen) ∨
      ((∀ data, call = .addTailData data → ¬Reallocates data observed.buffer) ∧
        next.buffer.trueLen = observed.buffer.trueLen) := by
  obtain ⟨⟨outcome, buffer⟩, performed, next_eq⟩ := Option.bind_eq_some_iff.mp execution
  obtain rfl := Option.some.inj next_eq
  cases call with
  | addTailData data =>
      obtain ⟨⟨result, roomy⟩, stored, performed⟩ := Option.bind_eq_some_iff.mp performed
      obtain ⟨-, rfl⟩ := Prod.mk.inj (Option.some.inj performed)
      by_cases reallocates : Reallocates data observed.buffer
      · exact Or.inl ⟨data, rfl, reallocates, trueLen_of_reallocates reallocates stored⟩
      · refine Or.inr ⟨?_, trueLen_of_not_reallocates reallocates stored⟩
        rintro other ⟨⟩
        exact reallocates
  | popHeadData callback =>
      obtain ⟨⟨result, popped, offer⟩, popped_eq, performed⟩ :=
        Option.bind_eq_some_iff.mp performed
      obtain ⟨-, rfl⟩ := Prod.mk.inj (Option.some.inj performed)
      exact Or.inr ⟨fun data other => absurd other (by simp), trueLen_of_popHeadData popped_eq⟩
  | getSize =>
      obtain ⟨-, rfl⟩ := Prod.mk.inj (Option.some.inj performed)
      exact Or.inr ⟨fun data other => absurd other (by simp), rfl⟩

/-- One call keeps the capacity within its bounds. -/
theorem peaked_step {initial peak : Nat} (peak_lt : peak < 2 ^ 30) {call : Call}
    {observed : Observed} {state : List UInt8 × List Outcome}
    (peaked : Peaked initial peak observed state) (holds : call.Holds peak state) :
    ∃ next, Observed.step call observed = some next ∧
      CapacityStep initial peak call observed.buffer next.buffer ∧
      Peaked initial peak next (queueStep call state) := by
  have holds' : (queueStep call state).1.length ≤ 2 ^ 30 := Nat.le_of_lt (holds.trans_lt peak_lt)
  obtain ⟨next, execution, represents⟩ := step_represents_of_le peaked.represents holds'
  have initial_le := peaked.initial_le
  refine ⟨next, execution, ?_⟩
  rcases trueLen_of_step execution with ⟨data, rfl, reallocates, len_eq⟩ | ⟨stays, len_eq⟩
  · -- The new capacity is a power of two above what is now unread.
    have wf := peaked.represents.wellFormed
    obtain ⟨accepted, beyond⟩ := (reallocates_iff wf).mp reallocates
    have total : (queueStep (.addTailData data) state).1.length =
        observed.buffer.getSize + data.len := by
      rw [queueStep, queuePerform_addTailData, List.length_append, added, if_pos accepted,
        (CharSpan.content_length_of_nonEmpty accepted.1).1, wf.getSize_eq,
        peaked.represents.unread_eq]
    have data_pos := (CharSpan.content_length_of_nonEmpty accepted.1).2
    have after_size : next.buffer.getSize = observed.buffer.getSize + data.len := by
      rw [represents.wellFormed.getSize_eq, represents.unread_eq, total]
    obtain ⟨total_lt, twice, power, -, power_eq⟩ := getReallocLen_spec len_eq
    have twice := twice (by omega)
    rw [Call.Holds, total] at holds
    rw [← wf.getSize_eq] at beyond
    have bounded : next.buffer.trueLen ≤ max initial (2 * peak) :=
      (twice.trans (Nat.mul_le_mul_left 2 holds)).trans (Nat.le_max_right _ _)
    refine ⟨⟨by omega, Or.inr ⟨power, power_eq⟩, bounded, ?_, ?_, ?_⟩, represents, by omega,
      Or.inr ⟨power, power_eq⟩, bounded⟩
    · intro other _ _
      omega
    · intro stays
      exact absurd reallocates (stays data rfl)
    · intro peak_le
      omega
  · refine ⟨⟨len_eq.ge, by rw [len_eq]; exact peaked.shape, by rw [len_eq]; exact peaked.bounded,
      fun data call_eq reallocates => absurd reallocates (stays data call_eq), fun _ => len_eq,
      fun _ => stays⟩, represents, by omega, by rw [len_eq]; exact peaked.shape,
      by rw [len_eq]; exact peaked.bounded⟩

/-- In a run of calls whose queue never holds more than `peak` bytes, the capacity never decreases,
stays the initial one or a power of two and at most `max initial (2 * peak)`, and a reallocation
leaves more than there was and more than is unread; while the queue fits into the initial capacity,
there is none. -/
theorem capacity_bounded (defaultLen peak : Nat) (calls : List Call) (peak_lt : peak < 2 ^ 30)
    (holds : PartialRun.Guarded (fun call state => some (queueStep call state))
      (Call.Holds peak) calls ([], [])) :
    PartialRun.Guarded Observed.step (Call.Capacious (initialLen defaultLen) peak) calls
      (Observed.start defaultLen) := by
  have start : Peaked (initialLen defaultLen) peak (Observed.start defaultLen) ([], []) :=
    { represents := start_represents defaultLen
      initial_le := Nat.le_refl _
      shape := Or.inl rfl
      bounded := Nat.le_max_left _ _ }
  refine PartialRun.guarded_of_abstract queueStep ?_ start holds
  intro call observed state peaked holds
  obtain ⟨after, execution, capacity, kept⟩ := peaked_step peak_lt peaked holds
  refine ⟨⟨after, execution, capacity⟩, ?_⟩
  intro next first
  obtain rfl := Option.some.inj (execution.symm.trans first)
  exact kept

/-- 5000 bytes are more than the initial capacity of the smallest buffer. -/
theorem capacity_bounded_fiveThousand :
    PartialRun.Guarded Observed.step (Call.Capacious (initialLen 0) 5000)
      [.addTailData (.bytes (List.replicate 5000 0)), .popHeadData fun _ => 5000]
      (Observed.start 0) := by
  have length_eq : (List.replicate 5000 (0 : UInt8)).length = 5000 := List.length_replicate
  generalize List.replicate 5000 (0 : UInt8) = content at length_eq
  have queued : (queueStep (.addTailData (.bytes content)) ([], [])).1 = content := by
    rw [queueStep, queuePerform_addTailData, (added_of_length_le (by rw [length_eq]; decide)).1,
      List.nil_append]
  refine capacity_bounded 0 5000 _ (by decide) ⟨by rw [Call.Holds, queued, length_eq], ?_⟩
  rintro next ⟨⟩
  refine ⟨?_, fun _ _ => trivial⟩
  rw [Call.Holds, queueStep, queuePerform_popHeadData, queued, List.length_drop, length_eq]
  exact Nat.sub_le _ _

end AutoGrowBuffer
end NetworkBase
