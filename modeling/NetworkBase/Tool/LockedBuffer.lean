import NetworkBase.Library.Ledger
import NetworkBase.Library.Monitor
import NetworkBase.Tool.ByteQueue

/-!
# The growing buffer under its mutex

Two threads use every buffer: one adds at the tail while the other pops at the head.  The methods of
`AutoGrowBuffer` are taken apart into the statements of their source; a statement is one step, and
between two statements of a method the fields need not be well formed.  Every interleaving of the
statements of any number of threads is a behaviour of the abstract byte queue, so one method is one
atomic step.
-/

namespace NetworkBase
namespace AutoGrowBuffer

/-- The places between the lock and the unlock of a method, each in front of one statement, with the
local variables that are alive there. -/
inductive Place
  /-- `if (current_end_position_ + len <= true_len_)` -/
  | tailTest (data : CharSpan)
  /-- `else if ((true_len_ - current_end_position_ + current_begin_position_) >= len)` -/
  | slideTest (data : CharSpan)
  /-- `memmove(true_buf_, true_buf_ + current_begin_position_, ...)` -/
  | slide (data : CharSpan)
  /-- `current_end_position_ -= current_begin_position_` -/
  | slideEnd (data : CharSpan)
  /-- `current_begin_position_ = 0`, after a slide -/
  | slideBegin (data : CharSpan)
  /-- `size_t current_len = current_end_position_ - current_begin_position_` -/
  | currentLen (data : CharSpan)
  /-- `size_t new_len = GetReallocLen(current_len + len)` -/
  | newLen (data : CharSpan) (currentLen : Nat)
  /-- `char *new_buf = new char[new_len]` -/
  | newBuf (data : CharSpan) (currentLen newLen : Nat)
  /-- `memcpy(new_buf, true_buf_ + current_begin_position_, current_len)` -/
  | copyOld (data : CharSpan) (currentLen newLen : Nat) (newBuf : List UInt8)
  /-- `delete [] true_buf_` -/
  | deleteBuf (data : CharSpan) (currentLen newLen : Nat) (newBuf : List UInt8)
  /-- `true_buf_ = new_buf` -/
  | setBuf (data : CharSpan) (currentLen newLen : Nat) (newBuf : List UInt8)
  /-- `true_len_ = new_len` -/
  | setLen (data : CharSpan) (currentLen newLen : Nat)
  /-- `current_begin_position_ = 0`, after a reallocation -/
  | setBegin (data : CharSpan) (currentLen : Nat)
  /-- `current_end_position_ = current_len` -/
  | setEnd (data : CharSpan) (currentLen : Nat)
  /-- `memcpy(true_buf_ + current_end_position_, data, len)` -/
  | copyData (data : CharSpan)
  /-- `current_end_position_ += len` -/
  | advanceEnd (data : CharSpan)
  /-- `size_t pop_len_expert = current_end_position_ - current_begin_position_` -/
  | popLenExpert (callback : List UInt8 → Int)
  /-- `ssize_t pop_len = pop_data(true_buf_ + current_begin_position_, pop_len_expert)` -/
  | popData (callback : List UInt8 → Int) (popLenExpert : Nat)
  /-- `if (pop_len < 0 || pop_len > pop_len_expert)` -/
  | popTest (offer : List UInt8) (popLen : Int) (popLenExpert : Nat)
  /-- `current_begin_position_ += pop_len` -/
  | advanceBegin (offer : List UInt8) (popLen : Int)
  /-- `size_t get_size = current_end_position_ - current_begin_position_` -/
  | getSize

/-- One statement of a method: the place behind it, or the value that is returned after the unlock,
and the fields. -/
def statement : Place → AutoGrowBuffer → Option ((Place ⊕ Outcome) × AutoGrowBuffer)
  | .tailTest data, buffer =>
      if buffer.currentEndPosition + data.len ≤ buffer.trueLen then
        some (.inl (.copyData data), buffer)
      else
        some (.inl (.slideTest data), buffer)
  | .slideTest data, buffer =>
      if buffer.trueLen - buffer.currentEndPosition + buffer.currentBeginPosition ≥ data.len then
        some (.inl (.slide data), buffer)
      else
        some (.inl (.currentLen data), buffer)
  | .slide data, buffer => do
      let kept ← MemoryBlock.read buffer.trueBuf buffer.currentBeginPosition
        (buffer.currentEndPosition - buffer.currentBeginPosition)
      let trueBuf ← MemoryBlock.write buffer.trueBuf 0 kept
      some (.inl (.slideEnd data), { buffer with trueBuf })
  | .slideEnd data, buffer =>
      some (.inl (.slideBegin data),
        { buffer with
          currentEndPosition := buffer.currentEndPosition - buffer.currentBeginPosition })
  | .slideBegin data, buffer =>
      some (.inl (.copyData data), { buffer with currentBeginPosition := 0 })
  | .currentLen data, buffer =>
      some (.inl (.newLen data (buffer.currentEndPosition - buffer.currentBeginPosition)), buffer)
  | .newLen data currentLen, buffer => do
      let newLen ← getReallocLen (currentLen + data.len)
      some (.inl (.newBuf data currentLen newLen), buffer)
  | .newBuf data currentLen newLen, buffer =>
      some (.inl (.copyOld data currentLen newLen (newChars newLen)), buffer)
  | .copyOld data currentLen newLen newBuf, buffer => do
      let kept ← MemoryBlock.read buffer.trueBuf buffer.currentBeginPosition currentLen
      let newBuf ← MemoryBlock.write newBuf 0 kept
      some (.inl (.deleteBuf data currentLen newLen newBuf), buffer)
  | .deleteBuf data currentLen newLen newBuf, buffer =>
      -- nothing may be read through the pointer until it is set again
      some (.inl (.setBuf data currentLen newLen newBuf), { buffer with trueBuf := [] })
  | .setBuf data currentLen newLen newBuf, buffer =>
      some (.inl (.setLen data currentLen newLen), { buffer with trueBuf := newBuf })
  | .setLen data currentLen newLen, buffer =>
      some (.inl (.setBegin data currentLen), { buffer with trueLen := newLen })
  | .setBegin data currentLen, buffer =>
      some (.inl (.setEnd data currentLen), { buffer with currentBeginPosition := 0 })
  | .setEnd data currentLen, buffer =>
      some (.inl (.copyData data), { buffer with currentEndPosition := currentLen })
  | .copyData data, buffer => do
      let trueBuf ← MemoryBlock.write buffer.trueBuf buffer.currentEndPosition data.content
      some (.inl (.advanceEnd data), { buffer with trueBuf })
  | .advanceEnd data, buffer =>
      some (.inr (.added data.len),
        { buffer with currentEndPosition := buffer.currentEndPosition + data.len })
  | .popLenExpert callback, buffer =>
      some (.inl (.popData callback (buffer.currentEndPosition - buffer.currentBeginPosition)),
        buffer)
  | .popData callback popLenExpert, buffer => do
      let offer ← MemoryBlock.read buffer.trueBuf buffer.currentBeginPosition popLenExpert
      some (.inl (.popTest offer (callback offer) popLenExpert), buffer)
  | .popTest offer popLen popLenExpert, buffer =>
      if popLen < 0 ∨ popLen > popLenExpert then
        some (.inr (.popped offer (-1)), buffer)
      else
        some (.inl (.advanceBegin offer popLen), buffer)
  | .advanceBegin offer popLen, buffer =>
      some (.inr (.popped offer popLen),
        { buffer with currentBeginPosition := buffer.currentBeginPosition + popLen.toNat })
  | .getSize, buffer =>
      some (.inr (.size (buffer.currentEndPosition - buffer.currentBeginPosition)), buffer)

/-- What a method does in front of its lock. -/
def enter : Call → Outcome ⊕ Place
  | .addTailData data =>
      if ¬data.nonEmpty then .inl (.added 0)
      else if data.len > kMaxLen then .inl (.added (-1))
      else .inr (.tailTest data)
  | .popHeadData callback => .inr (.popLenExpert callback)
  | .getSize => .inr .getSize

/-- The methods of the class under its mutex. -/
def monitor : Monitor AutoGrowBuffer Call Outcome Place where
  enter
  statement

/-- The byte queue that answers each call in one step. -/
def queue : Atomic (List UInt8) Call Outcome where
  perform := queuePerform

/-! ## A method without interruption -/

open Monitor (finishes_inl_iff finishes_inr_iff finishes_of_statement)

section Sections

variable {data : CharSpan} {buffer after : AutoGrowBuffer} {answer : Outcome}

/-- The statements of the second path are the slide. -/
theorem finishes_slide :
    monitor.Finishes (.inl (.slide data)) buffer answer after ↔
      ∃ roomy, buffer.slide = some roomy ∧
        monitor.Finishes (.inl (.copyData data)) roomy answer after := by
  rw [finishes_inl_iff, slide]
  cases kept_eq : MemoryBlock.read buffer.trueBuf buffer.currentBeginPosition
      (buffer.currentEndPosition - buffer.currentBeginPosition) with
  | none => simp [monitor, statement, kept_eq]
  | some kept =>
      cases written : MemoryBlock.write buffer.trueBuf 0 kept with
      | none => simp [monitor, statement, kept_eq, written]
      | some trueBuf =>
          simp only [monitor, statement, kept_eq, written, Option.bind_eq_bind, Option.bind_some,
            Option.some.injEq, exists_eq_left', finishes_inl_iff]

/-- The statements of the third path are the reallocation. -/
theorem finishes_currentLen :
    monitor.Finishes (.inl (.currentLen data)) buffer answer after ↔
      ∃ roomy, buffer.reallocate data.len = some roomy ∧
        monitor.Finishes (.inl (.copyData data)) roomy answer after := by
  let currentLen := buffer.currentEndPosition - buffer.currentBeginPosition
  have begins : monitor.statement (.currentLen data) buffer =
      some (.inl (.newLen data currentLen), buffer) := rfl
  rw [finishes_of_statement begins, finishes_inl_iff, reallocate]
  cases newLen_eq : getReallocLen (currentLen + data.len) with
  | none => simp [monitor, statement, newLen_eq, currentLen]
  | some newLen =>
      cases kept_eq : MemoryBlock.read buffer.trueBuf buffer.currentBeginPosition currentLen with
      | none =>
          simp only [monitor, statement, newLen_eq, kept_eq, Option.bind_eq_bind, Option.bind_some,
            Option.bind_none, Option.some.injEq, exists_eq_left', finishes_inl_iff, currentLen,
            reduceCtorEq, false_and, exists_false]
      | some kept =>
          cases written : MemoryBlock.write (newChars newLen) 0 kept with
          | none =>
              simp only [monitor, statement, newLen_eq, kept_eq, written, Option.bind_eq_bind,
                Option.bind_some, Option.bind_none, Option.some.injEq, exists_eq_left',
                finishes_inl_iff, currentLen, reduceCtorEq, false_and, exists_false]
          | some trueBuf =>
              simp only [monitor, statement, newLen_eq, kept_eq, written, Option.bind_eq_bind,
                Option.bind_some, Option.some.injEq, exists_eq_left', finishes_inl_iff, currentLen]

/-- The last statements copy the data behind the unread bytes. -/
theorem finishes_copyData :
    monitor.Finishes (.inl (.copyData data)) buffer answer after ↔
      ∃ trueBuf, MemoryBlock.write buffer.trueBuf buffer.currentEndPosition data.content =
          some trueBuf ∧
        .added data.len = answer ∧
        { buffer with
          trueBuf
          currentEndPosition := buffer.currentEndPosition + data.len } = after := by
  rw [finishes_inl_iff]
  cases written : MemoryBlock.write buffer.trueBuf buffer.currentEndPosition data.content with
  | none => simp [monitor, statement, written]
  | some trueBuf =>
      simp only [monitor, statement, written, Option.bind_eq_bind, Option.bind_some,
        Option.some.injEq, exists_eq_left', finishes_inl_iff, finishes_inr_iff]

/-- The first statements make room for the data. -/
theorem finishes_tailTest :
    monitor.Finishes (.inl (.tailTest data)) buffer answer after ↔
      ∃ roomy, buffer.makeRoom data.len = some roomy ∧
        monitor.Finishes (.inl (.copyData data)) roomy answer after := by
  rw [makeRoom]
  by_cases fits : buffer.currentEndPosition + data.len ≤ buffer.trueLen
  · have goes : monitor.statement (.tailTest data) buffer =
        some (.inl (.copyData data), buffer) := if_pos fits
    rw [finishes_of_statement goes, if_pos fits]
    simp
  · have goes : monitor.statement (.tailTest data) buffer =
        some (.inl (.slideTest data), buffer) := if_neg fits
    rw [finishes_of_statement goes, if_neg fits]
    by_cases slides :
        buffer.trueLen - buffer.currentEndPosition + buffer.currentBeginPosition ≥ data.len
    · have goes' : monitor.statement (.slideTest data) buffer =
          some (.inl (.slide data), buffer) := if_pos slides
      rw [finishes_of_statement goes', if_pos slides, finishes_slide]
    · have goes' : monitor.statement (.slideTest data) buffer =
          some (.inl (.currentLen data), buffer) := if_neg slides
      rw [finishes_of_statement goes', if_neg slides, finishes_currentLen]

/-- The statements of `AddTailData` behind the lock are the method. -/
theorem finishes_addTailData (accepted : data.nonEmpty = true ∧ data.len ≤ kMaxLen) :
    monitor.Finishes (.inl (.tailTest data)) buffer answer after ↔
      ∃ result, addTailData data buffer = some (result, after) ∧ answer = .added result := by
  rw [finishes_tailTest, addTailData, if_neg (by simp [accepted.1]),
    if_neg (Nat.not_lt.mpr accepted.2)]
  cases buffer.makeRoom data.len with
  | none => simp
  | some roomy =>
      simp only [Option.some.injEq, exists_eq_left', finishes_copyData, Option.bind_eq_bind,
        Option.bind_some]
      cases MemoryBlock.write roomy.trueBuf roomy.currentEndPosition data.content with
      | none => simp
      | some trueBuf =>
          simp only [Option.some.injEq, exists_eq_left', Option.bind_some, Prod.mk.injEq]
          constructor
          · rintro ⟨rfl, rfl⟩
            exact ⟨data.len, ⟨rfl, rfl⟩, rfl⟩
          · rintro ⟨_, ⟨rfl, rfl⟩, rfl⟩
            exact ⟨rfl, rfl⟩

/-- The statements of `PopHeadData` are the method. -/
theorem finishes_popHeadData {callback : List UInt8 → Int} (wf : buffer.WellFormed) :
    monitor.Finishes (.inl (.popLenExpert callback)) buffer answer after ↔
      .popped buffer.unread (buffer.consume (callback buffer.unread)).1 = answer ∧
        (buffer.consume (callback buffer.unread)).2 = after := by
  have begins : monitor.statement (.popLenExpert callback) buffer =
      some (.inl (.popData callback
        (buffer.currentEndPosition - buffer.currentBeginPosition)), buffer) := rfl
  have offers : monitor.statement (.popData callback
      (buffer.currentEndPosition - buffer.currentBeginPosition)) buffer =
        some (.inl (.popTest buffer.unread (callback buffer.unread)
          (buffer.currentEndPosition - buffer.currentBeginPosition)), buffer) := by
    simp only [monitor, statement, wf.read_unread, Option.bind_eq_bind, Option.bind_some]
  rw [finishes_of_statement begins, finishes_of_statement offers, consume]
  by_cases outside : callback buffer.unread < 0 ∨
      callback buffer.unread > (buffer.currentEndPosition - buffer.currentBeginPosition : Nat)
  · rw [finishes_of_statement (if_pos outside), finishes_inr_iff, if_pos outside]
  · rw [finishes_of_statement (if_neg outside), finishes_of_statement rfl, finishes_inr_iff,
      if_neg outside]

end Sections

/-- The buffer is well formed and its unread bytes are the queue. -/
def HoldsQueue (buffer : AutoGrowBuffer) (bytes : List UInt8) : Prop :=
  buffer.WellFormed ∧ buffer.unread = bytes

/-- A method takes its mutex exactly for a call that is not answered by its arguments alone. -/
theorem enter_addTailData (data : CharSpan) :
    monitor.enter (.addTailData data) =
      if data.nonEmpty = true ∧ data.len ≤ kMaxLen then .inr (.tailTest data)
      else .inl (.added (addResult data)) := by
  by_cases filled : data.nonEmpty = true
  · by_cases len_le : data.len ≤ kMaxLen
    · simp [monitor, enter, filled, len_le, Nat.not_lt.mpr len_le]
    · simp [monitor, enter, filled, len_le, Nat.lt_of_not_le len_le, addResult]
  · simp [monitor, enter, filled, addResult]

/-- Without interruption the methods answer like the byte queue. -/
theorem implements_queue : monitor.Implements queue HoldsQueue where
  direct := by
    intro call answer enters value
    cases call with
    | addTailData data =>
        rw [enter_addTailData] at enters
        split at enters
        · cases enters
        · rename_i refused
          cases enters
          change queuePerform (.addTailData data) value = _
          rw [queuePerform_addTailData, added, if_neg refused, List.append_nil]
    | popHeadData callback => cases enters
    | getSize => cases enters
  finished := by
    rintro call place before after value answer enters ⟨wf, rfl⟩ finishes
    cases call with
    | addTailData data =>
        rw [enter_addTailData] at enters
        split at enters
        · rename_i accepted
          cases enters
          obtain ⟨result, execution, rfl⟩ := (finishes_addTailData accepted).mp finishes
          obtain ⟨rfl, after_wf, unread_eq⟩ := addTailData_of_some wf execution
          change _ = (queuePerform _ _).1 ∧ HoldsQueue after (queuePerform _ _).2
          rw [queuePerform_addTailData]
          exact ⟨rfl, after_wf, unread_eq⟩
        · cases enters
    | popHeadData callback =>
        cases enters
        obtain ⟨rfl, rfl⟩ := (finishes_popHeadData wf).mp finishes
        obtain ⟨result_eq, after_wf, unread_eq⟩ := consume_spec wf (callback before.unread)
        change _ = (queuePerform _ _).1 ∧ HoldsQueue _ (queuePerform _ _).2
        rw [queuePerform_popHeadData, result_eq]
        exact ⟨rfl, after_wf, unread_eq⟩
    | getSize =>
        cases enters
        have goes : monitor.statement .getSize before = some (.inr (.size
            (before.currentEndPosition - before.currentBeginPosition)), before) := rfl
        obtain ⟨rfl, rfl⟩ := finishes_inr_iff.mp ((finishes_of_statement goes).mp finishes)
        exact ⟨congrArg Outcome.size wf.unread_length.symm, wf, rfl⟩

/-- The call leaves at most `2 ^ 30` bytes in the queue. -/
def Fits (call : Call) (bytes : List UInt8) : Prop :=
  (queuePerform call bytes).2.length ≤ 2 ^ 30

/-- No statement of a call that fits is undefined, and the call comes to its unlock. -/
theorem ends_of_fits : monitor.Ends HoldsQueue Fits := by
  rintro call place before value enters ⟨wf, rfl⟩ fits
  cases call with
  | addTailData data =>
      rw [enter_addTailData] at enters
      split at enters
      · rename_i accepted
        cases enters
        rw [Fits, queuePerform_addTailData, List.length_append] at fits
        obtain ⟨after, execution, -, -⟩ := exists_addTailData wf data fits
        exact ⟨_, after, (finishes_addTailData accepted).mpr ⟨_, execution, rfl⟩⟩
      · cases enters
  | popHeadData callback =>
      cases enters
      exact ⟨_, _, (finishes_popHeadData wf).mpr ⟨rfl, rfl⟩⟩
  | getSize =>
      cases enters
      exact ⟨_, before, .advance rfl (.unlock _ _)⟩

/-! ## Any number of threads -/

variable {θ : Type} [DecidableEq θ]

/-- A fresh buffer that no thread has called yet. -/
def freshWorld (θ : Type) (defaultLen : Nat) :
    Monitor.World AutoGrowBuffer Call Outcome Place θ := .start (construct defaultLen)

theorem exists_queue_run (defaultLen : Nat) {events : List (Monitor.Event Call Outcome θ)}
    {final : Monitor.World AutoGrowBuffer Call Outcome Place θ}
    (execution : PartialRun.run monitor.step events (freshWorld θ defaultLen) = some final) :
    ∃ moves reached, PartialRun.run queue.step moves (.start []) = some reached ∧
      moves.filterMap Atomic.Event.seen = events.filterMap Monitor.Event.seen ∧
      Monitor.Matches monitor HoldsQueue final reached :=
  Monitor.exists_atomic implements_queue
    ⟨construct_wellFormed defaultLen, construct_unread defaultLen⟩ execution

/-- One thread adds while another one waits for the mutex with a pop. -/
def sharedRun : List (Monitor.Event Call Outcome Bool) :=
  [.invoked true (.addTailData (.bytes [1, 2])), .lock true, .advance true,
    .invoked false (.popHeadData fun _ => 1), .advance true, .advance true, .unlock true,
    .lock false, .advance false, .returned true (.added 2), .advance false, .advance false,
    .advance false, .unlock false, .returned false (.popped [1, 2] 1)]

theorem sharedRun_isSome : (PartialRun.run monitor.step sharedRun (freshWorld Bool 0)).isSome := by
  decide +kernel

/-- Whatever the order in which the statements of any number of threads interleave, the calls and
the answers of the threads are those of the byte queue with every call one step, and while no thread
holds the mutex the buffer is well formed with the queue as its unread bytes. -/
theorem linearizable (defaultLen : Nat) (events : List (Monitor.Event Call Outcome θ))
    (final : Monitor.World AutoGrowBuffer Call Outcome Place θ)
    (execution : PartialRun.run monitor.step events (freshWorld θ defaultLen) = some final) :
    ∃ moves reached, PartialRun.run queue.step moves (.start []) = some reached ∧
      moves.filterMap Atomic.Event.seen = events.filterMap Monitor.Event.seen ∧
      (∀ thread, (final.phase thread).stage = reached.stage thread) ∧
      (final.owner = none → final.shared.WellFormed ∧ final.shared.unread = reached.value) := by
  obtain ⟨moves, reached, moves_run, seen_eq, matched⟩ := exists_queue_run defaultLen execution
  exact ⟨moves, reached, moves_run, seen_eq, matched.stage, matched.free⟩

theorem linearizable_sharedRun :
    ∃ final, PartialRun.run monitor.step sharedRun (freshWorld Bool 0) = some final ∧
      ∃ moves reached, PartialRun.run queue.step moves (.start []) = some reached ∧
        moves.filterMap Atomic.Event.seen = sharedRun.filterMap Monitor.Event.seen ∧
        (∀ thread, (final.phase thread).stage = reached.stage thread) ∧
        (final.owner = none → final.shared.WellFormed ∧ final.shared.unread = reached.value) := by
  obtain ⟨final, execution⟩ := Option.isSome_iff_exists.mp sharedRun_isSome
  exact ⟨final, execution, linearizable 0 sharedRun final execution⟩

/-! ## The bytes of a run -/

/-- The bytes a call hands to the buffer. -/
def Call.given : Call → List UInt8
  | .addTailData data => added data
  | .popHeadData _ => []
  | .getSize => []

/-- The bytes an outcome reports as consumed. -/
def Outcome.taken : Outcome → List UInt8
  | .added _ => []
  | .popped offer result => offer.take result.toNat
  | .size _ => []

/-- The bytes an observed call hands to the buffer. -/
def givenBy : Atomic.Observation Call Outcome θ → List UInt8
  | .invoked _ call => call.given
  | .returned _ _ => []

/-- The bytes an observed answer reports as consumed. -/
def takenBy : Atomic.Observation Call Outcome θ → List UInt8
  | .invoked _ _ => []
  | .returned _ outcome => outcome.taken

/-- The bytes the threads handed to the buffer, in the order of their calls. -/
def given (events : List (Monitor.Event Call Outcome θ)) : List UInt8 :=
  (events.filterMap Monitor.Event.seen).flatMap givenBy

/-- The bytes the threads were told they consumed, in the order of the answers. -/
def taken (events : List (Monitor.Event Call Outcome θ)) : List UInt8 :=
  (events.filterMap Monitor.Event.seen).flatMap takenBy

omit [DecidableEq θ] in
theorem given_length (events : List (Monitor.Event Call Outcome θ)) :
    (given events).length = ((events.filterMap Monitor.Event.seen).map
      (Atomic.broughtIn fun call => call.given.length)).sum := by
  rw [given, List.length_flatMap]
  congr 1
  refine List.map_congr_left fun observation _ => ?_
  cases observation <;> rfl

omit [DecidableEq θ] in
theorem taken_length (events : List (Monitor.Event Call Outcome θ)) :
    (taken events).length = ((events.filterMap Monitor.Event.seen).map
      (Atomic.carriedHome fun outcome => outcome.taken.length)).sum := by
  rw [taken, List.length_flatMap]
  congr 1
  refine List.map_congr_left fun observation _ => ?_
  cases observation <;> rfl

/-- A call that takes effect moves bytes: what it takes is the front of the queue, what it gives
goes to the tail. -/
theorem queue_moves (call : Call) (bytes : List UInt8) :
    (queue.perform call bytes).1.taken ++ (queue.perform call bytes).2 = bytes ++ call.given := by
  cases call with
  | addTailData data =>
      simp only [queue, queuePerform_addTailData, Outcome.taken, Call.given, List.nil_append]
  | popHeadData callback =>
      simp only [queue, queuePerform_popHeadData, Outcome.taken, Call.given, popResult, popCount,
        List.append_nil]
      split_ifs with outside
      · simp
      · rw [List.take_append_drop]
  | getSize => simp [queue, queuePerform, Outcome.taken, Call.given]

/-! ## No interleaving gets stuck -/

/-- A call that has not taken effect yet fits, as long as what was handed over and not reported as
consumed fits into `2 ^ 30` bytes. -/
theorem safely_of_given {events : List (Monitor.Event Call Outcome θ)}
    {moves : List (Atomic.Event Call Outcome θ)} {reached : Atomic.World _ Call Outcome θ}
    (execution : PartialRun.run queue.step moves (.start []) = some reached)
    (seen_eq : moves.filterMap Atomic.Event.seen = events.filterMap Monitor.Event.seen)
    (fits : (given events).length ≤ (taken events).length + 2 ^ 30) :
    Monitor.Safely Fits reached := by
  have pays : ∀ call bytes, (queue.perform call bytes).2.length +
      (queue.perform call bytes).1.taken.length ≤ bytes.length + call.given.length := by
    intro call bytes
    have moved := congrArg List.length (queue_moves call bytes)
    rw [List.length_append, List.length_append] at moved
    omega
  intro thread call called
  have balance := Atomic.size_add_cost_le List.length (fun call => call.given.length)
    (fun outcome => outcome.taken.length) pays execution called
  rw [seen_eq, ← given_length, ← taken_length, List.length_nil] at balance
  have paid := pays call reached.value
  change (queue.perform call reached.value).2.length ≤ _
  omega

/-- As long as the bytes handed over and not reported as consumed fit into `2 ^ 30`, no interleaving
gets stuck: each thread with a call can go on or waits for the thread that holds the mutex, and that
thread gives it back by finitely many statements of its own, none of them undefined. -/
theorem never_stuck (defaultLen : Nat) (events : List (Monitor.Event Call Outcome θ))
    (final : Monitor.World AutoGrowBuffer Call Outcome Place θ)
    (execution : PartialRun.run monitor.step events (freshWorld θ defaultLen) = some final)
    (fits : (given events).length ≤ (taken events).length + 2 ^ 30) :
    (∀ thread, (final.phase thread).stage ≠ .idle →
      (∃ event : Monitor.Event Call Outcome θ, event.thread = thread ∧
        (monitor.step event final).isSome) ∨
      ∃ other, other ≠ thread ∧ final.owner = some other) ∧
    ∀ thread, final.owner = some thread →
      ∃ count after, PartialRun.run monitor.step
          (List.replicate count (.advance thread) ++ [.unlock thread]) final = some after ∧
        after.owner = none := by
  obtain ⟨moves, reached, moves_run, seen_eq, matched⟩ := exists_queue_run defaultLen execution
  have safely := safely_of_given moves_run seen_eq fits
  exact ⟨fun thread => Monitor.moves_or_waits ends_of_fits matched safely,
    fun thread => Monitor.releases ends_of_fits matched safely⟩

theorem never_stuck_sharedRun :
    ∃ final, PartialRun.run monitor.step sharedRun (freshWorld Bool 0) = some final ∧
      (∀ thread, (final.phase thread).stage ≠ .idle →
        (∃ event : Monitor.Event Call Outcome Bool, event.thread = thread ∧
          (monitor.step event final).isSome) ∨
        ∃ other, other ≠ thread ∧ final.owner = some other) ∧
      ∀ thread, final.owner = some thread →
        ∃ count after, PartialRun.run monitor.step
            (List.replicate count (.advance thread) ++ [.unlock thread]) final = some after ∧
          after.owner = none := by
  obtain ⟨final, execution⟩ := Option.isSome_iff_exists.mp sharedRun_isSome
  exact ⟨final, execution, never_stuck 0 sharedRun final execution (by decide)⟩

/-! ## One producer and one consumer -/

/-- The bytes of a call that has not taken effect yet. -/
def toCome : Atomic.Stage Call Outcome → List UInt8
  | .idle => []
  | .called call => call.given
  | .answered _ => []

/-- The bytes of an answer that has not been returned yet. -/
def inHand : Atomic.Stage Call Outcome → List UInt8
  | .idle => []
  | .called _ => []
  | .answered outcome => outcome.taken

@[simp]
theorem toCome_idle : toCome .idle = [] := rfl

@[simp]
theorem toCome_called (call : Call) : toCome (.called call) = call.given := rfl

@[simp]
theorem toCome_answered (outcome : Outcome) : toCome (.answered outcome) = [] := rfl

@[simp]
theorem inHand_idle : inHand .idle = [] := rfl

@[simp]
theorem inHand_called (call : Call) : inHand (.called call) = [] := rfl

@[simp]
theorem inHand_answered (outcome : Outcome) : inHand (.answered outcome) = outcome.taken := rfl

/-- Only the producer brings bytes in and only the consumer takes bytes out. -/
structure Roles (producer consumer : θ) (stage : θ → Atomic.Stage Call Outcome) : Prop where
  brings : ∀ thread, toCome (stage thread) ≠ [] → thread = producer
  pops : ∀ thread callback, stage thread = .called (.popHeadData callback) → thread = consumer
  carries : ∀ thread, inHand (stage thread) ≠ [] → thread = consumer

/-- A thread moves to a stage that fits its role. -/
theorem Roles.moved {producer consumer thread : θ} {stage : θ → Atomic.Stage Call Outcome}
    {next : Atomic.Stage Call Outcome} (roles : Roles producer consumer stage)
    (brings : toCome next ≠ [] → thread = producer)
    (pops : ∀ callback, next = .called (.popHeadData callback) → thread = consumer)
    (carries : inHand next ≠ [] → thread = consumer) :
    Roles producer consumer (Function.update stage thread next) where
  brings := (Function.forall_update_iff stage
    (p := fun other stage => toCome stage ≠ [] → other = producer)).mpr
      ⟨brings, fun other _ => roles.brings other⟩
  pops := (Function.forall_update_iff stage (p := fun other stage =>
    ∀ callback, stage = .called (.popHeadData callback) → other = consumer)).mpr
      ⟨pops, fun other _ => roles.pops other⟩
  carries := (Function.forall_update_iff stage
    (p := fun other stage => inHand stage ≠ [] → other = consumer)).mpr
      ⟨carries, fun other _ => roles.carries other⟩

/-- No byte is anywhere but on its way from the producer to the consumer. -/
structure Piped (producer consumer : θ) (seen : List (Atomic.Observation Call Outcome θ))
    (world : Atomic.World (List UInt8) Call Outcome θ) : Prop where
  roles : Roles producer consumer world.stage
  conserved : Conserved (seen.flatMap takenBy)
    (inHand (world.stage consumer) ++ world.value ++ toCome (world.stage producer))
    (seen.flatMap givenBy)

section Moves

variable (f : Atomic.Stage Call Outcome → List UInt8) {home thread : θ}
  (stage : θ → Atomic.Stage Call Outcome) (next : Atomic.Stage Call Outcome)

/-- A thread that carried nothing picks something up. -/
theorem carried_gained (empty : f (stage thread) = []) (own : f next ≠ [] → thread = home) :
    f (Function.update stage thread next home) = f (stage home) ++ f next := by
  by_cases same : home = thread
  · subst same
    rw [Function.update_self, empty, List.nil_append]
  · have nothing : f next = [] := by
      by_contra something
      exact same (own something).symm
    rw [Function.update_of_ne same, nothing, List.append_nil]

/-- A thread puts down all it carried. -/
theorem carried_lost (empty : f next = []) (own : f (stage thread) ≠ [] → thread = home) :
    f (stage home) = f (stage thread) ++ f (Function.update stage thread next home) := by
  by_cases same : home = thread
  · subst same
    rw [Function.update_self, empty, List.append_nil]
  · have nothing : f (stage thread) = [] := by
      by_contra something
      exact same (own something).symm
    rw [Function.update_of_ne same, nothing, List.nil_append]

end Moves

/-- Only a pop takes bytes out. -/
theorem exists_callback_of_taken {call : Call} {bytes : List UInt8}
    (takes : (queue.perform call bytes).1.taken ≠ []) :
    ∃ callback, call = .popHeadData callback := by
  cases call with
  | addTailData data =>
      simp only [queue, queuePerform_addTailData, Outcome.taken, ne_eq, not_true] at takes
  | popHeadData callback => exact ⟨callback, rfl⟩
  | getSize => simp only [queue, queuePerform, Outcome.taken, ne_eq, not_true] at takes

/-- The calls a thread makes are the ones it may make. -/
def Keeps (producer consumer : θ) : Atomic.Event Call Outcome θ → Prop
  | .invoked thread (.addTailData _) => thread = producer
  | .invoked thread (.popHeadData _) => thread = consumer
  | _ => True

theorem piped_of_step {producer consumer : θ} {event : Atomic.Event Call Outcome θ}
    (keeps : Keeps producer consumer event) {seen : List (Atomic.Observation Call Outcome θ)}
    {before after : Atomic.World (List UInt8) Call Outcome θ}
    (piped : Piped producer consumer seen before)
    (execution : queue.step event before = some after) :
    Piped producer consumer (seen ++ event.seen.toList) after := by
  obtain ⟨roles, conserved⟩ := piped
  obtain ⟨thread, call, rfl, idle, rfl⟩ | ⟨thread, call, rfl, called, rfl⟩ |
    ⟨thread, outcome, rfl, answered, rfl⟩ := Atomic.step_cases execution
  · -- the bytes of a new call come behind all others
    have gives : toCome (.called call) ≠ [] → thread = producer := by
      intro filled
      cases call with
      | addTailData data => exact keeps
      | popHeadData callback => exact absurd rfl filled
      | getSize => exact absurd rfl filled
    have nothing : inHand (.called call) ≠ [] → thread = consumer := fun carried =>
      absurd rfl carried
    refine ⟨roles.moved gives (fun callback pop => by cases pop; exact keeps) nothing, ?_⟩
    have coming := carried_gained toCome before.stage (.called call)
      (by rw [idle, toCome_idle]) gives
    have holding := carried_gained inHand before.stage (.called call)
      (by rw [idle, inHand_idle]) nothing
    have pushed := conserved.push call.given
    simp only [Conserved, Atomic.Event.seen, Option.toList, List.flatMap_append,
      List.flatMap_cons, List.flatMap_nil, takenBy, givenBy, coming, holding, inHand_called,
      toCome_called, List.append_nil, List.append_assoc] at pushed ⊢
    exact pushed
  · -- the bytes a call takes come behind what its thread holds and are the front of the queue
    have takes : inHand (.answered (queue.perform call before.value).1) ≠ [] →
        thread = consumer := by
      intro carried
      obtain ⟨callback, rfl⟩ := exists_callback_of_taken carried
      exact roles.pops thread callback called
    have nothing : toCome (.answered (queue.perform call before.value).1) ≠ [] →
        thread = producer := fun coming => absurd rfl coming
    refine ⟨roles.moved nothing (fun callback pop => by cases pop) takes, ?_⟩
    have coming := carried_lost toCome before.stage
      (.answered (queue.perform call before.value).1) rfl (roles.brings thread)
    have holding := carried_gained inHand before.stage
      (.answered (queue.perform call before.value).1) (by rw [called, inHand_called]) takes
    have moves := queue_moves call before.value
    rw [called, toCome_called] at coming
    rw [coming] at conserved
    simp only [Atomic.Event.seen, Option.toList, List.append_nil, holding, inHand_answered]
    rw [Conserved, ← conserved, ← List.append_assoc _ call.given, List.append_assoc _ _ call.given,
      ← moves]
    simp only [List.append_assoc]
  · -- the bytes of an answer are the oldest its thread holds
    have nothing : inHand .idle ≠ [] → thread = consumer := fun carried => absurd rfl carried
    refine ⟨roles.moved (fun coming => absurd rfl coming) (fun callback pop => by cases pop)
      nothing, ?_⟩
    have coming := carried_lost toCome before.stage .idle rfl
      (roles.brings thread)
    have holding := carried_lost inHand before.stage .idle rfl
      (roles.carries thread)
    rw [answered, toCome_answered, List.nil_append] at coming
    rw [answered, inHand_answered] at holding
    rw [coming, holding] at conserved
    simp only [Atomic.Event.seen, Option.toList, List.flatMap_append, List.flatMap_cons,
      List.flatMap_nil, takenBy, givenBy, List.append_nil]
    rw [Conserved, ← conserved]
    simp only [List.append_assoc]

/-- Whatever the order in which the statements interleave, when one thread does all the adding and
one thread all the popping, the bytes the consumer was given are the first of those the producer
handed over, and at rest the others are the unread bytes of the buffer. -/
theorem pipe (defaultLen : Nat) (producer consumer : θ)
    (events : List (Monitor.Event Call Outcome θ))
    (final : Monitor.World AutoGrowBuffer Call Outcome Place θ)
    (execution : PartialRun.run monitor.step events (freshWorld θ defaultLen) = some final)
    (adds : ∀ thread data, .invoked thread (.addTailData data) ∈ events → thread = producer)
    (pops : ∀ thread callback, .invoked thread (.popHeadData callback) ∈ events →
      thread = consumer) :
    taken events <+: given events ∧
      ((∀ thread, (final.phase thread).stage = .idle) →
        taken events ++ final.shared.unread = given events) := by
  obtain ⟨moves, reached, moves_run, seen_eq, matched⟩ := exists_queue_run defaultLen execution
  have keeps : ∀ move ∈ moves, Keeps producer consumer move := by
    intro move mem
    cases move with
    | invoked thread call =>
        have seen : .invoked thread call ∈ moves.filterMap Atomic.Event.seen :=
          List.mem_filterMap.mpr ⟨_, mem, rfl⟩
        rw [seen_eq] at seen
        obtain ⟨event, event_mem, event_seen⟩ := List.mem_filterMap.mp seen
        obtain rfl : event = .invoked thread call := by
          cases event <;> cases event_seen
          rfl
        cases call with
        | addTailData data => exact adds thread data event_mem
        | popHeadData callback => exact pops thread callback event_mem
        | getSize => trivial
    | effect thread => trivial
    | returned thread outcome => trivial
  have piped := Atomic.invariant_of_run (Piped producer consumer)
    (fun move mem _ _ _ piped step => piped_of_step (keeps move mem) piped step) moves_run
    ⟨⟨fun _ coming => absurd rfl coming, fun _ _ pop => (by cases pop),
      fun _ carried => absurd rfl carried⟩, Conserved.refl⟩
  have conserved := piped.conserved
  rw [seen_eq] at conserved
  refine ⟨⟨_, conserved⟩, fun rest => ?_⟩
  have free : final.owner = none := by
    by_contra owned
    obtain ⟨thread, owner_eq⟩ := Option.ne_none_iff_exists'.mp owned
    have holds := (matched.owner_iff thread).mp owner_eq
    have idle := rest thread
    cases phase : final.phase thread with
    | inside call place => rw [phase] at idle; cases idle
    | leaving answer => rw [phase] at idle; cases idle
    | idle => rw [phase] at holds; cases holds
    | waiting call place => rw [phase] at holds; cases holds
    | returning answer => rw [phase] at holds; cases holds
  rw [(matched.free free).2]
  have producer_idle := (matched.stage producer).symm.trans (rest producer)
  have consumer_idle := (matched.stage consumer).symm.trans (rest consumer)
  rw [producer_idle, consumer_idle, inHand_idle, toCome_idle, List.nil_append,
    List.append_nil] at conserved
  exact conserved

theorem pipe_sharedRun :
    ∃ final, PartialRun.run monitor.step sharedRun (freshWorld Bool 0) = some final ∧
      taken sharedRun <+: given sharedRun ∧
      ((∀ thread, (final.phase thread).stage = .idle) →
        taken sharedRun ++ final.shared.unread = given sharedRun) := by
  obtain ⟨final, execution⟩ := Option.isSome_iff_exists.mp sharedRun_isSome
  exact ⟨final, execution, pipe 0 true false sharedRun final execution
    (by simp [sharedRun]) (by simp [sharedRun])⟩

end AutoGrowBuffer
end NetworkBase
