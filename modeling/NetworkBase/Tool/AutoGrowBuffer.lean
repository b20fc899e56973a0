import Mathlib.Tactic
import NetworkBase.Library.MemoryBlock

/-!
# The growing byte buffer

`AutoGrowBuffer` keeps its unread bytes between two positions of one allocation.  Data is added
behind the end position; when the tail of the allocation is too short, the unread bytes slide to
the front, and when the whole allocation is too small, they move to a larger one.  The mutex of the
class makes every method one atomic step, so a method is a function of the state.  An operation
that would shift a bit out of `int` or copy outside its allocation has no result.
-/

namespace NetworkBase

/-- A `(const char *, size_t)` argument: a null pointer with a length, or a pointer to bytes. -/
inductive CharSpan
  /-- A null pointer, handed over with some length. -/
  | null (len : Nat)
  /-- A pointer to exactly these bytes. -/
  | bytes (content : List UInt8)
  deriving DecidableEq, Repr

namespace CharSpan

/-- The length argument. -/
def len : CharSpan → Nat
  | null len => len
  | bytes content => content.length

/-- The bytes that may be read through the pointer. -/
def content : CharSpan → List UInt8
  | null _ => []
  | bytes content => content

/-- The test `data && len`. -/
def nonEmpty : CharSpan → Bool
  | null _ => false
  | bytes content => content.length ≠ 0

@[simp]
theorem len_bytes (content : List UInt8) : (bytes content).len = content.length := rfl

@[simp]
theorem content_bytes (content : List UInt8) : (bytes content).content = content := rfl

theorem content_length_of_nonEmpty {data : CharSpan} (filled : data.nonEmpty = true) :
    data.content.length = data.len ∧ 0 < data.len := by
  cases data with
  | null len => simp [nonEmpty] at filled
  | bytes content =>
      refine ⟨rfl, ?_⟩
      simpa [nonEmpty, List.length_pos_iff] using filled

end CharSpan

/-- `AutoGrowBuffer`, without its mutex. -/
structure AutoGrowBuffer where
  /-- The allocation. -/
  trueBuf : List UInt8
  /-- The recorded size of the allocation. -/
  trueLen : Nat
  /-- Position of the first unread byte. -/
  currentBeginPosition : Nat
  /-- Position behind the last unread byte. -/
  currentEndPosition : Nat
  deriving DecidableEq, Repr

namespace AutoGrowBuffer

/-- Largest amount one call may add, and largest initial size. -/
def kMaxLen : Nat := 1024 * 1024

/-- Smallest initial size. -/
def kMinLen : Nat := 4 * 1024

/-- `new char[len]`; the initial cells are never offered to anyone. -/
def newChars (len : Nat) : List UInt8 := List.replicate len 0

/-- The initial size: the wanted one, at least `kMinLen` and at most `kMaxLen`. -/
def initialLen (defaultLen : Nat) : Nat :=
  let trueLen := if kMinLen < defaultLen then defaultLen else kMinLen
  if trueLen < kMaxLen then trueLen else kMaxLen

/-- The constructor. -/
def construct (defaultLen : Nat) : AutoGrowBuffer where
  trueBuf := newChars (initialLen defaultLen)
  trueLen := initialLen defaultLen
  currentBeginPosition := 0
  currentEndPosition := 0

/-- The halving loop of `GetReallocLen`, which counts the bits of `len`. -/
def sizePow (len : Nat) : Nat :=
  if len = 0 then 0 else sizePow (len / 2) + 1

/-- `1 << size_pow` in a 32-bit `int`, undefined where the bit leaves the positive range. -/
def shiftOne (power : Nat) : Option Nat :=
  if power < 31 then some (2 ^ power) else none

/-- `GetReallocLen`. -/
def getReallocLen (len : Nat) : Option Nat := shiftOne (sizePow len)

/-- The second path of `AddTailData`: slide the unread bytes to the front. -/
def slide (buffer : AutoGrowBuffer) : Option AutoGrowBuffer := do
  let kept ← MemoryBlock.read buffer.trueBuf buffer.currentBeginPosition
    (buffer.currentEndPosition - buffer.currentBeginPosition)
  let trueBuf ← MemoryBlock.write buffer.trueBuf 0 kept
  some
    { buffer with
      trueBuf
      currentEndPosition := buffer.currentEndPosition - buffer.currentBeginPosition
      currentBeginPosition := 0 }

/-- The third path of `AddTailData`: move the unread bytes to a larger allocation. -/
def reallocate (len : Nat) (buffer : AutoGrowBuffer) : Option AutoGrowBuffer := do
  let currentLen := buffer.currentEndPosition - buffer.currentBeginPosition
  let newLen ← getReallocLen (currentLen + len)
  let kept ← MemoryBlock.read buffer.trueBuf buffer.currentBeginPosition currentLen
  let trueBuf ← MemoryBlock.write (newChars newLen) 0 kept
  some { trueBuf, trueLen := newLen, currentBeginPosition := 0, currentEndPosition := currentLen }

/-- The three paths that make room for `len` bytes behind the end position. -/
def makeRoom (len : Nat) (buffer : AutoGrowBuffer) : Option AutoGrowBuffer :=
  if buffer.currentEndPosition + len ≤ buffer.trueLen then
    some buffer
  else if buffer.trueLen - buffer.currentEndPosition + buffer.currentBeginPosition ≥ len then
    buffer.slide
  else
    buffer.reallocate len

/-- `AddTailData`: the return value and the buffer afterwards. -/
def addTailData (data : CharSpan) (buffer : AutoGrowBuffer) : Option (Int × AutoGrowBuffer) :=
  if ¬data.nonEmpty then
    some (0, buffer)
  else if data.len > kMaxLen then
    some (-1, buffer)
  else do
    let roomy ← buffer.makeRoom data.len
    let trueBuf ← MemoryBlock.write roomy.trueBuf roomy.currentEndPosition data.content
    some (data.len,
      { roomy with trueBuf, currentEndPosition := roomy.currentEndPosition + data.len })

/-- What `PopHeadData` does with the value its callback returned. -/
def consume (popLen : Int) (buffer : AutoGrowBuffer) : Int × AutoGrowBuffer :=
  let popLenExpert := buffer.currentEndPosition - buffer.currentBeginPosition
  if popLen < 0 ∨ popLen > popLenExpert then
    (-1, buffer)
  else
    (popLen, { buffer with currentBeginPosition := buffer.currentBeginPosition + popLen.toNat })

/-- `PopHeadData`; the callback acts on a state of its own while the buffer is locked. -/
def popHeadData {ω : Type} (popData : List UInt8 → ω → Option (Int × ω))
    (buffer : AutoGrowBuffer) (world : ω) : Option (Int × AutoGrowBuffer × ω) := do
  let offer ← MemoryBlock.read buffer.trueBuf buffer.currentBeginPosition
    (buffer.currentEndPosition - buffer.currentBeginPosition)
  let (popLen, world) ← popData offer world
  let (result, buffer) := buffer.consume popLen
  some (result, buffer, world)

/-- `GetSize`. -/
def getSize (buffer : AutoGrowBuffer) : Nat :=
  buffer.currentEndPosition - buffer.currentBeginPosition

/-! ## The invariant -/

/-- The positions are ordered and inside the allocation, and the allocation has its recorded
size, which is a small initial one or a power of two that fits in `int`. -/
structure WellFormed (buffer : AutoGrowBuffer) : Prop where
  begin_le_end : buffer.currentBeginPosition ≤ buffer.currentEndPosition
  end_le_len : buffer.currentEndPosition ≤ buffer.trueLen
  buf_length : buffer.trueBuf.length = buffer.trueLen
  capacity : buffer.trueLen ≤ kMaxLen ∨ ∃ power, power < 31 ∧ buffer.trueLen = 2 ^ power

/-- The unread bytes, oldest first. -/
def unread (buffer : AutoGrowBuffer) : List UInt8 :=
  (buffer.trueBuf.drop buffer.currentBeginPosition).take
    (buffer.currentEndPosition - buffer.currentBeginPosition)

/-- The bytes a call of `AddTailData` takes over. -/
def added (data : CharSpan) : List UInt8 :=
  if data.nonEmpty = true ∧ data.len ≤ kMaxLen then data.content else []

/-- The value a call of `AddTailData` returns. -/
def addResult (data : CharSpan) : Int :=
  if data.nonEmpty = true then if data.len ≤ kMaxLen then data.len else -1 else 0

/-- How many bytes `PopHeadData` removes from an offer after its callback returned `popLen`. -/
def popCount (popLen : Int) (offered : Nat) : Nat :=
  if popLen < 0 ∨ popLen > offered then 0 else popLen.toNat

/-- The value `PopHeadData` returns after its callback returned `popLen`. -/
def popResult (popLen : Int) (offered : Nat) : Int :=
  if popLen < 0 ∨ popLen > offered then -1 else popLen

/-- A short enough buffer is taken over as a whole. -/
theorem added_of_length_le {content : List UInt8} (length_le : content.length ≤ kMaxLen) :
    added (.bytes content) = content ∧ addResult (.bytes content) = content.length := by
  by_cases empty : content = []
  · subst empty
    exact ⟨rfl, rfl⟩
  · have filled : (CharSpan.bytes content).nonEmpty = true := by simp [CharSpan.nonEmpty, empty]
    constructor
    · rw [added, if_pos ⟨filled, length_le⟩, CharSpan.content_bytes]
    · rw [addResult, if_pos filled, CharSpan.len_bytes, if_pos length_le]

theorem WellFormed.unread_length {buffer : AutoGrowBuffer} (wf : buffer.WellFormed) :
    buffer.unread.length = buffer.currentEndPosition - buffer.currentBeginPosition := by
  have := wf.end_le_len
  have := wf.buf_length
  simp only [unread, List.length_take, List.length_drop]
  omega

theorem WellFormed.getSize_eq {buffer : AutoGrowBuffer} (wf : buffer.WellFormed) :
    buffer.getSize = buffer.unread.length := wf.unread_length.symm

theorem WellFormed.read_unread {buffer : AutoGrowBuffer} (wf : buffer.WellFormed) :
    MemoryBlock.read buffer.trueBuf buffer.currentBeginPosition
      (buffer.currentEndPosition - buffer.currentBeginPosition) = some buffer.unread := by
  have := wf.begin_le_end
  have := wf.end_le_len
  have := wf.buf_length
  exact MemoryBlock.read_eq_some (by omega)

theorem WellFormed.trueLen_le {buffer : AutoGrowBuffer} (wf : buffer.WellFormed) :
    buffer.trueLen ≤ 2 ^ 30 := by
  rcases wf.capacity with small | ⟨power, power_lt, len_eq⟩
  · exact small.trans (by decide)
  · rw [len_eq]
    exact Nat.pow_le_pow_right (by decide) (by omega)

/-- No buffer holds more bytes than its allocation. -/
theorem WellFormed.unread_le {buffer : AutoGrowBuffer} (wf : buffer.WellFormed) :
    buffer.unread.length ≤ buffer.trueLen := by
  rw [wf.unread_length]
  exact (Nat.sub_le _ _).trans wf.end_le_len

theorem initialLen_le (defaultLen : Nat) : initialLen defaultLen ≤ kMaxLen := by
  simp only [initialLen]
  split_ifs <;> omega

theorem construct_wellFormed (defaultLen : Nat) : (construct defaultLen).WellFormed where
  begin_le_end := Nat.le_refl 0
  end_le_len := Nat.zero_le _
  buf_length := List.length_replicate
  capacity := Or.inl (initialLen_le defaultLen)

@[simp]
theorem construct_unread (defaultLen : Nat) : (construct defaultLen).unread = [] := by
  simp [unread, construct]

/-! ## The size of a new allocation -/

/-- The halving loop counts up to `power` exactly for the lengths below `2 ^ power`. -/
theorem sizePow_le_iff (len power : Nat) : sizePow len ≤ power ↔ len < 2 ^ power := by
  induction len using sizePow.induct generalizing power with
  | case1 => simp [sizePow]
  | case2 len len_ne ih =>
      rw [sizePow, if_neg len_ne]
      cases power with
      | zero => simp; omega
      | succ power =>
          rw [Nat.succ_le_succ_iff, ih, Nat.pow_succ]
          omega

/-- The shift stays in `int` exactly for the lengths below `2 ^ 30`. -/
theorem getReallocLen_isSome_iff (len : Nat) : (getReallocLen len).isSome ↔ len < 2 ^ 30 := by
  rw [← sizePow_le_iff, getReallocLen, shiftOne]
  split
  · simp
    omega
  · simp
    omega

/-- A new allocation is a power of two above the wanted length and at most twice as large. -/
theorem getReallocLen_spec {len newLen : Nat} (execution : getReallocLen len = some newLen) :
    len < newLen ∧ (0 < len → newLen ≤ 2 * len) ∧ ∃ power, power < 31 ∧ newLen = 2 ^ power := by
  rw [getReallocLen, shiftOne] at execution
  split at execution
  · rename_i power_lt
    cases execution
    refine ⟨(sizePow_le_iff len _).mp (Nat.le_refl _), ?_, sizePow len, power_lt, rfl⟩
    intro len_pos
    cases power_eq : sizePow len with
    | zero =>
        have := (sizePow_le_iff len 0).mp power_eq.le
        omega
    | succ power =>
        have above : ¬len < 2 ^ power := by
          rw [← sizePow_le_iff]
          omega
        rw [Nat.pow_succ]
        omega
  · contradiction

/-! ## Making room -/

/-- Sliding keeps the unread bytes and gains the space in front of them. -/
theorem slide_spec {buffer : AutoGrowBuffer} (wf : buffer.WellFormed) :
    ∃ after, buffer.slide = some after ∧ after.WellFormed ∧ after.unread = buffer.unread ∧
      after.trueLen = buffer.trueLen ∧ after.currentEndPosition = buffer.unread.length := by
  have unread_length := wf.unread_length
  have end_le_len := wf.end_le_len
  have buf_length := wf.buf_length
  have fits : 0 + buffer.unread.length ≤ buffer.trueBuf.length := by omega
  obtain ⟨trueBuf, written⟩ := MemoryBlock.exists_write fits
  refine ⟨
    { buffer with
      trueBuf
      currentEndPosition := buffer.currentEndPosition - buffer.currentBeginPosition
      currentBeginPosition := 0 }, ?_, ?_, ?_, rfl, unread_length.symm⟩
  · simp only [slide, wf.read_unread, written, Option.bind_eq_bind, Option.bind_some]
  · exact
      { begin_le_end := Nat.zero_le _
        end_le_len := (Nat.sub_le _ _).trans end_le_len
        buf_length := (MemoryBlock.length_of_write written).trans buf_length
        capacity := wf.capacity }
  · change (trueBuf.drop 0).take
        (buffer.currentEndPosition - buffer.currentBeginPosition - 0) = buffer.unread
    rw [Nat.sub_zero, ← unread_length]
    exact MemoryBlock.window_of_write_front written

/-- Reallocating keeps the unread bytes and leaves room for `len` more. -/
theorem reallocate_spec {buffer : AutoGrowBuffer} (wf : buffer.WellFormed) (len : Nat)
    (small : buffer.unread.length + len < 2 ^ 30) :
    ∃ after, buffer.reallocate len = some after ∧ after.WellFormed ∧
      after.unread = buffer.unread ∧ after.currentEndPosition + len < after.trueLen := by
  have unread_length := wf.unread_length
  obtain ⟨newLen, newLen_eq⟩ :=
    Option.isSome_iff_exists.mp ((getReallocLen_isSome_iff _).mpr small)
  obtain ⟨len_lt, -, power⟩ := getReallocLen_spec newLen_eq
  have fits : 0 + buffer.unread.length ≤ (newChars newLen).length := by
    rw [newChars, List.length_replicate]
    omega
  obtain ⟨trueBuf, written⟩ := MemoryBlock.exists_write fits
  rw [unread_length] at newLen_eq
  refine ⟨
    { trueBuf
      trueLen := newLen
      currentBeginPosition := 0
      currentEndPosition := buffer.currentEndPosition - buffer.currentBeginPosition },
    ?_, ?_, ?_, ?_⟩
  · simp only [reallocate, newLen_eq, wf.read_unread, written, Option.bind_eq_bind,
      Option.bind_some]
  · exact
      { begin_le_end := Nat.zero_le _
        end_le_len := by
          change buffer.currentEndPosition - buffer.currentBeginPosition ≤ newLen
          omega
        buf_length := (MemoryBlock.length_of_write written).trans List.length_replicate
        capacity := Or.inr power }
  · change (trueBuf.drop 0).take
        (buffer.currentEndPosition - buffer.currentBeginPosition - 0) = buffer.unread
    rw [Nat.sub_zero, ← unread_length]
    exact MemoryBlock.window_of_write_front written
  · change buffer.currentEndPosition - buffer.currentBeginPosition + len < newLen
    omega

/-- Past the capacity and `2 ^ 30` bytes the shift for a new allocation overflows. -/
theorem makeRoom_eq_none {buffer : AutoGrowBuffer} (wf : buffer.WellFormed) (len : Nat)
    (beyond : buffer.trueLen < buffer.unread.length + len)
    (large : 2 ^ 30 ≤ buffer.unread.length + len) : buffer.makeRoom len = none := by
  have unread_length := wf.unread_length
  have end_le_len := wf.end_le_len
  have begin_le_end := wf.begin_le_end
  rw [makeRoom, if_neg (by omega), if_neg (by omega)]
  have overflow : getReallocLen
      (buffer.currentEndPosition - buffer.currentBeginPosition + len) = none := by
    rw [← unread_length, ← Option.not_isSome_iff_eq_none, getReallocLen_isSome_iff]
    omega
  simp only [reallocate, overflow, Option.bind_eq_bind, Option.bind_none]

/-- Whichever path is taken, the unread bytes stay and `len` more fit behind them. -/
theorem makeRoom_spec {buffer : AutoGrowBuffer} (wf : buffer.WellFormed) {len : Nat}
    (room : buffer.unread.length + len ≤ buffer.trueLen ∨
      buffer.unread.length + len < 2 ^ 30) :
    ∃ after, buffer.makeRoom len = some after ∧ after.WellFormed ∧
      after.unread = buffer.unread ∧ after.currentEndPosition + len ≤ after.trueLen := by
  have unread_length := wf.unread_length
  have begin_le_end := wf.begin_le_end
  have end_le_len := wf.end_le_len
  rw [makeRoom]
  split
  · rename_i fits
    exact ⟨buffer, rfl, wf, rfl, fits⟩
  · split
    · rename_i slides
      obtain ⟨after, execution, after_wf, unread_eq, len_eq, end_eq⟩ := slide_spec wf
      exact ⟨after, execution, after_wf, unread_eq, by omega⟩
    · rename_i short
      obtain ⟨after, execution, after_wf, unread_eq, fits⟩ :=
        reallocate_spec wf len (by omega)
      exact ⟨after, execution, after_wf, unread_eq, by omega⟩

/-! ## Adding at the tail -/

theorem addResult_of_accepted {data : CharSpan} (filled : data.nonEmpty = true)
    (len_le : data.len ≤ kMaxLen) : addResult data = data.len := by
  rw [addResult, if_pos filled, if_pos len_le]

/-- A refused call returns its code and changes nothing. -/
theorem addTailData_refused {data : CharSpan}
    (refused : ¬(data.nonEmpty = true ∧ data.len ≤ kMaxLen)) (buffer : AutoGrowBuffer) :
    addTailData data buffer = some (addResult data, buffer) := by
  by_cases filled : data.nonEmpty = true
  · have too_long : ¬data.len ≤ kMaxLen := fun len_le => refused ⟨filled, len_le⟩
    rw [addTailData, if_neg (by simp [filled]), if_pos (by omega), addResult, if_pos filled,
      if_neg too_long]
  · rw [addTailData, if_pos filled, addResult, if_neg filled]

/-- Where there is room, the call appends exactly the bytes it takes over. -/
theorem addTailData_spec {buffer : AutoGrowBuffer} (wf : buffer.WellFormed) {data : CharSpan}
    (room : buffer.unread.length + data.len ≤ buffer.trueLen ∨
      buffer.unread.length + data.len < 2 ^ 30) :
    ∃ after, addTailData data buffer = some (addResult data, after) ∧ after.WellFormed ∧
      after.unread = buffer.unread ++ added data := by
  by_cases accepted : data.nonEmpty = true ∧ data.len ≤ kMaxLen
  · obtain ⟨filled, len_le⟩ := accepted
    obtain ⟨content_length, -⟩ := CharSpan.content_length_of_nonEmpty filled
    obtain ⟨roomy, execution, roomy_wf, unread_eq, fits⟩ := makeRoom_spec wf room
    have begin_le_end := roomy_wf.begin_le_end
    have fits : roomy.currentEndPosition + data.content.length ≤ roomy.trueBuf.length := by
      rw [content_length, roomy_wf.buf_length]
      exact fits
    obtain ⟨trueBuf, written⟩ := MemoryBlock.exists_write fits
    refine ⟨
      { roomy with
        trueBuf
        currentEndPosition := roomy.currentEndPosition + data.len }, ?_, ?_, ?_⟩
    · rw [addTailData, if_neg (by simp [filled]), if_neg (by omega), execution,
        addResult_of_accepted filled len_le]
      simp only [written, Option.bind_eq_bind, Option.bind_some]
    · exact
        { begin_le_end := begin_le_end.trans (Nat.le_add_right _ _)
          end_le_len := by simpa [content_length, roomy_wf.buf_length] using fits
          buf_length := (MemoryBlock.length_of_write written).trans roomy_wf.buf_length
          capacity := roomy_wf.capacity }
    · rw [added, if_pos ⟨filled, len_le⟩, ← unread_eq]
      simp only [unread]
      rw [← content_length]
      exact MemoryBlock.window_of_write begin_le_end written
  · refine ⟨buffer, addTailData_refused accepted buffer, wf, ?_⟩
    rw [added, if_neg accepted, List.append_nil]

/-- A call that fits into `2 ^ 30` bytes finds room: the capacity is a power of two, so for exactly
as many bytes it is there already. -/
theorem room_of_le {buffer : AutoGrowBuffer} (wf : buffer.WellFormed) {len : Nat}
    (len_le : len ≤ kMaxLen) (fits : buffer.unread.length + len ≤ 2 ^ 30) :
    buffer.unread.length + len ≤ buffer.trueLen ∨ buffer.unread.length + len < 2 ^ 30 := by
  have unread_le := wf.unread_le
  have kMaxLen_eq : kMaxLen = 2 ^ 20 := rfl
  rcases wf.capacity with small | ⟨power, power_lt, len_eq⟩
  · omega
  · by_cases largest : power = 30
    · subst largest
      omega
    · have power_le : 2 ^ power ≤ 2 ^ 29 := Nat.pow_le_pow_right (by decide) (by omega)
      omega

/-- A call after which at most `2 ^ 30` bytes are unread is defined. -/
theorem exists_addTailData {buffer : AutoGrowBuffer} (wf : buffer.WellFormed) (data : CharSpan)
    (fits : buffer.unread.length + (added data).length ≤ 2 ^ 30) :
    ∃ after, addTailData data buffer = some (addResult data, after) ∧ after.WellFormed ∧
      after.unread = buffer.unread ++ added data := by
  by_cases accepted : data.nonEmpty = true ∧ data.len ≤ kMaxLen
  · rw [added, if_pos accepted, (CharSpan.content_length_of_nonEmpty accepted.1).1] at fits
    exact addTailData_spec wf (room_of_le wf accepted.2 fits)
  · refine ⟨buffer, addTailData_refused accepted buffer, wf, ?_⟩
    rw [added, if_neg accepted, List.append_nil]

/-- Whenever the call has a result, it appended exactly the bytes it takes over. -/
theorem addTailData_of_some {buffer after : AutoGrowBuffer} (wf : buffer.WellFormed)
    {data : CharSpan} {result : Int}
    (execution : addTailData data buffer = some (result, after)) :
    result = addResult data ∧ after.WellFormed ∧
      after.unread = buffer.unread ++ added data := by
  have spec : (∃ next, addTailData data buffer = some (addResult data, next) ∧ next.WellFormed ∧
      next.unread = buffer.unread ++ added data) := by
    by_cases accepted : data.nonEmpty = true ∧ data.len ≤ kMaxLen
    · apply addTailData_spec wf
      by_contra full
      have none_eq := makeRoom_eq_none wf data.len (by omega) (by omega)
      obtain ⟨filled, len_le⟩ := accepted
      rw [addTailData, if_neg (by simp [filled]), if_neg (by omega), none_eq] at execution
      contradiction
    · refine ⟨buffer, addTailData_refused accepted buffer, wf, ?_⟩
      rw [added, if_neg accepted, List.append_nil]
  obtain ⟨next, next_eq, next_wf, unread_eq⟩ := spec
  rw [next_eq] at execution
  cases execution
  exact ⟨rfl, next_wf, unread_eq⟩

/-! ## Popping at the head -/

/-- Consuming keeps the invariant and removes exactly the counted front bytes. -/
theorem consume_spec {buffer : AutoGrowBuffer} (wf : buffer.WellFormed) (popLen : Int) :
    (buffer.consume popLen).1 = popResult popLen buffer.unread.length ∧
      (buffer.consume popLen).2.WellFormed ∧
      (buffer.consume popLen).2.unread =
        buffer.unread.drop (popCount popLen buffer.unread.length) := by
  have unread_length := wf.unread_length
  have begin_le_end := wf.begin_le_end
  simp only [consume, popResult, popCount, unread_length]
  split
  · exact ⟨rfl, wf, rfl⟩
  · rename_i in_range
    refine ⟨rfl, ?_, ?_⟩
    · exact
        { begin_le_end := by
            change buffer.currentBeginPosition + popLen.toNat ≤ buffer.currentEndPosition
            omega
          end_le_len := wf.end_le_len
          buf_length := wf.buf_length
          capacity := wf.capacity }
    · simp only [unread]
      rw [List.drop_take, List.drop_drop]
      congr 1
      omega

/-- `PopHeadData` offers exactly the unread bytes and then consumes what the callback says. -/
theorem popHeadData_eq {ω : Type} {buffer : AutoGrowBuffer} (wf : buffer.WellFormed)
    (popData : List UInt8 → ω → Option (Int × ω)) (world : ω) :
    popHeadData popData buffer world =
      (popData buffer.unread world).map fun answer =>
        ((buffer.consume answer.1).1, (buffer.consume answer.1).2, answer.2) := by
  simp only [popHeadData, wf.read_unread, Option.bind_eq_bind, Option.bind_some]
  cases popData buffer.unread world with
  | none => rfl
  | some answer => rfl

end AutoGrowBuffer
end NetworkBase
