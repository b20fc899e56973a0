import NetworkBase.Library.PartialRun
import NetworkBase.Tool.AutoGrowBuffer

/-!
# The growing buffer is a FIFO byte queue

The abstract queue is a list of bytes with three calls.  The buffer simulates it over every
sequence of calls in which, at each add, the unread bytes and the added length stay below `2 ^ 30`;
along the way the simulation proves that no call is undefined.
-/

namespace NetworkBase
namespace AutoGrowBuffer

/-- One call of a public method. -/
inductive Call
  | addTailData (data : CharSpan)
  | popHeadData (callback : List UInt8 → Int)
  | getSize

/-- What the caller sees of one call; a pop also shows what its callback was offered. -/
inductive Outcome
  | added (result : Int)
  | popped (offer : List UInt8) (result : Int)
  | size (size : Nat)
  deriving DecidableEq, Repr

/-- One call on the buffer. -/
def perform : Call → AutoGrowBuffer → Option (Outcome × AutoGrowBuffer)
  | .addTailData data, buffer => do
      let (result, buffer) ← buffer.addTailData data
      some (.added result, buffer)
  | .popHeadData callback, buffer => do
      let (result, buffer, offer) ←
        buffer.popHeadData (fun offer _ => some (callback offer, offer)) []
      some (.popped offer result, buffer)
  | .getSize, buffer => some (.size buffer.getSize, buffer)

/-- One call on the abstract queue. -/
def queuePerform : Call → List UInt8 → Outcome × List UInt8
  | .addTailData (.null _), queue => (.added 0, queue)
  | .addTailData (.bytes content), queue =>
      if content = [] then (.added 0, queue)
      else if content.length ≤ kMaxLen then (.added content.length, queue ++ content)
      else (.added (-1), queue)
  | .popHeadData callback, queue =>
      if 0 ≤ callback queue ∧ callback queue ≤ queue.length then
        (.popped queue (callback queue), queue.drop (callback queue).toNat)
      else
        (.popped queue (-1), queue)
  | .getSize, queue => (.size queue.length, queue)

/-- A buffer together with everything its callers have seen. -/
structure Observed where
  buffer : AutoGrowBuffer
  outcomes : List Outcome

/-- Perform a call and record its outcome. -/
def Observed.step (call : Call) (observed : Observed) : Option Observed := do
  let (outcome, buffer) ← observed.buffer.perform call
  some { buffer, outcomes := observed.outcomes ++ [outcome] }

/-- Perform a call on the abstract queue and record its outcome. -/
def queueStep (call : Call) (state : List UInt8 × List Outcome) : List UInt8 × List Outcome :=
  ((queuePerform call state.1).2, state.2 ++ [(queuePerform call state.1).1])

/-- A fresh buffer, before any call. -/
def Observed.start (defaultLen : Nat) : Observed where
  buffer := construct defaultLen
  outcomes := []

/-- At an add, the unread bytes and the added length stay below `2 ^ 30`. -/
def Call.Small : Call → Observed → Prop
  | .addTailData data, observed => observed.buffer.getSize + data.len < 2 ^ 30
  | .popHeadData _, _ => True
  | .getSize, _ => True

/-- The buffer is well formed, holds the abstract queue and has shown the same outcomes. -/
structure Represents (observed : Observed) (state : List UInt8 × List Outcome) : Prop where
  wellFormed : observed.buffer.WellFormed
  unread_eq : observed.buffer.unread = state.1
  outcomes_eq : observed.outcomes = state.2

theorem queuePerform_addTailData (data : CharSpan) (queue : List UInt8) :
    queuePerform (.addTailData data) queue = (.added (addResult data), queue ++ added data) := by
  cases data with
  | null len => simp [queuePerform, addResult, added, CharSpan.nonEmpty]
  | bytes content =>
      by_cases empty : content = []
      · simp [queuePerform, addResult, added, CharSpan.nonEmpty, empty]
      · by_cases len_le : content.length ≤ kMaxLen
        · simp [queuePerform, addResult, added, CharSpan.nonEmpty, empty, len_le]
        · simp [queuePerform, addResult, added, CharSpan.nonEmpty, empty, len_le]

theorem queuePerform_popHeadData (callback : List UInt8 → Int) (queue : List UInt8) :
    queuePerform (.popHeadData callback) queue =
      (.popped queue (popResult (callback queue) queue.length),
        queue.drop (popCount (callback queue) queue.length)) := by
  rw [queuePerform, popResult, popCount]
  split_ifs with in_range outside outside
  · omega
  · rfl
  · rfl
  · omega

/-- Every call after which at most `2 ^ 30` bytes are queued is defined and has the outcome of the
abstract queue. -/
theorem step_represents_of_le {call : Call} {observed : Observed}
    {state : List UInt8 × List Outcome} (represents : Represents observed state)
    (fits : (queueStep call state).1.length ≤ 2 ^ 30) :
    ∃ after, Observed.step call observed = some after ∧
      Represents after (queueStep call state) := by
  obtain ⟨wf, unread_eq, outcomes_eq⟩ := represents
  cases call with
  | addTailData data =>
      rw [queueStep, queuePerform_addTailData, List.length_append, ← unread_eq] at fits
      obtain ⟨buffer, execution, buffer_wf, buffer_unread⟩ := exists_addTailData wf data fits
      refine ⟨{ buffer, outcomes := observed.outcomes ++ [.added (addResult data)] }, ?_, ?_⟩
      · simp only [Observed.step, perform, execution, Option.bind_eq_bind, Option.bind_some]
      · rw [queueStep, queuePerform_addTailData]
        exact ⟨buffer_wf, by rw [buffer_unread, unread_eq], by rw [outcomes_eq]⟩
  | popHeadData callback =>
      obtain ⟨result_eq, after_wf, after_unread⟩ :=
        consume_spec wf (callback observed.buffer.unread)
      refine ⟨
        { buffer := (observed.buffer.consume (callback observed.buffer.unread)).2
          outcomes := observed.outcomes ++ [.popped observed.buffer.unread
            (popResult (callback observed.buffer.unread) observed.buffer.unread.length)] },
        ?_, ?_⟩
      · simp only [Observed.step, perform, popHeadData_eq wf, Option.map_some,
          Option.bind_eq_bind, Option.bind_some, result_eq]
      · rw [queueStep, queuePerform_popHeadData, ← unread_eq]
        exact ⟨after_wf, after_unread, by rw [outcomes_eq]⟩
  | getSize =>
      refine ⟨
        { buffer := observed.buffer
          outcomes := observed.outcomes ++ [.size observed.buffer.getSize] }, rfl, ?_⟩
      rw [queueStep, queuePerform, ← unread_eq, wf.getSize_eq]
      exact ⟨wf, rfl, by rw [outcomes_eq]⟩

theorem added_length_le (data : CharSpan) : (added data).length ≤ data.len := by
  cases data with
  | null len => simp [added, CharSpan.nonEmpty]
  | bytes content =>
      rw [added]
      split
      · exact Nat.le_refl _
      · exact Nat.zero_le _

/-- Every call that stays small is defined and has the outcome of the abstract queue. -/
theorem step_represents {call : Call} {observed : Observed}
    {state : List UInt8 × List Outcome} (represents : Represents observed state)
    (small : call.Small observed) :
    ∃ after, Observed.step call observed = some after ∧
      Represents after (queueStep call state) := by
  apply step_represents_of_le represents
  have unread_le := represents.wellFormed.unread_le.trans represents.wellFormed.trueLen_le
  rw [represents.unread_eq] at unread_le
  cases call with
  | addTailData data =>
      have added_le := added_length_le data
      rw [Call.Small, represents.wellFormed.getSize_eq, represents.unread_eq] at small
      rw [queueStep, queuePerform_addTailData, List.length_append]
      omega
  | popHeadData callback =>
      rw [queueStep, queuePerform_popHeadData, List.length_drop]
      exact (Nat.sub_le _ _).trans unread_le
  | getSize => exact unread_le

/-- The total length of all adds of a sequence of calls. -/
def totalAdded : List Call → Nat
  | [] => 0
  | .addTailData data :: calls => data.len + totalAdded calls
  | .popHeadData _ :: calls => totalAdded calls
  | .getSize :: calls => totalAdded calls

/-- Calls that add little enough in total stay small wherever the pops fall. -/
theorem guarded_of_totalAdded {calls : List Call} {observed : Observed}
    {state : List UInt8 × List Outcome} (represents : Represents observed state)
    (total : state.1.length + totalAdded calls < 2 ^ 30) :
    PartialRun.Guarded Observed.step Call.Small calls observed := by
  induction calls generalizing observed state with
  | nil => trivial
  | cons call calls ih =>
      have small : call.Small observed := by
        cases call with
        | addTailData data =>
            rw [Call.Small, represents.wellFormed.getSize_eq, represents.unread_eq]
            rw [totalAdded] at total
            omega
        | popHeadData callback => trivial
        | getSize => trivial
      refine ⟨small, ?_⟩
      intro next execution
      obtain ⟨after, after_eq, after_represents⟩ := step_represents represents small
      obtain rfl : after = next := Option.some.inj (after_eq.symm.trans execution)
      apply ih after_represents
      rw [queueStep]
      cases call with
      | addTailData data =>
          have := added_length_le data
          simp only [totalAdded] at total
          simp only [queuePerform_addTailData, List.length_append]
          omega
      | popHeadData callback =>
          simp only [totalAdded] at total
          simp only [queuePerform_popHeadData, List.length_drop]
          omega
      | getSize => exact total

theorem start_represents (defaultLen : Nat) :
    Represents (Observed.start defaultLen) ([], []) :=
  ⟨construct_wellFormed defaultLen, construct_unread defaultLen, rfl⟩

/-- Over every small sequence of calls the buffer is a FIFO byte queue: no call is undefined, the
positions stay ordered inside the allocation, and the unread bytes and all outcomes are those of
the abstract queue. -/
theorem refines_queue (defaultLen : Nat) (calls : List Call)
    (small : PartialRun.Guarded Observed.step Call.Small calls (Observed.start defaultLen)) :
    ∃ final, PartialRun.run Observed.step calls (Observed.start defaultLen) = some final ∧
      final.buffer.WellFormed ∧
      (final.buffer.unread, final.outcomes) =
        calls.foldl (fun state call => queueStep call state) ([], []) := by
  obtain ⟨final, execution, wf, unread_eq, outcomes_eq⟩ :=
    PartialRun.simulation queueStep (fun _ _ _ => step_represents) calls small
      (start_represents defaultLen)
  exact ⟨final, execution, wf, Prod.ext unread_eq outcomes_eq⟩

theorem refines_queue_partial_pop :
    ∃ final,
      PartialRun.run Observed.step
          [.addTailData (.bytes [1, 2, 3]), .popHeadData fun _ => 2, .popHeadData fun _ => 7,
            .addTailData (.null 5), .addTailData (.bytes [4]), .getSize]
          (Observed.start 0) = some final ∧
        final.buffer.WellFormed ∧
        (final.buffer.unread, final.outcomes) =
          ([3, 4], [.added 3, .popped [1, 2, 3] 2, .popped [3] (-1), .added 0, .added 1,
            .size 2]) :=
  refines_queue 0 _ (guarded_of_totalAdded (start_represents 0) (by decide))

end AutoGrowBuffer
end NetworkBase
