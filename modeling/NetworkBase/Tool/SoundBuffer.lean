import NetworkBase.Tool.AutoGrowBuffer

/-!
# Buffers that carry their invariant

Every buffer a transport holds was constructed and then only used through the three operations, so
it is well formed.  A `SoundBuffer` says so in its type, and its operations are those of the
underlying buffer.
-/

namespace NetworkBase

/-- A buffer with its invariant. -/
structure SoundBuffer extends AutoGrowBuffer where
  wf : toAutoGrowBuffer.WellFormed

namespace SoundBuffer

open AutoGrowBuffer (addResult added popCount popResult)

/-- The constructor. -/
def construct (defaultLen : Nat) : SoundBuffer :=
  ⟨AutoGrowBuffer.construct defaultLen, AutoGrowBuffer.construct_wellFormed defaultLen⟩

/-- `AddTailData`. -/
def addTailData (data : CharSpan) (buffer : SoundBuffer) : Option (Int × SoundBuffer) :=
  match execution : buffer.toAutoGrowBuffer.addTailData data with
  | none => none
  | some (result, after) =>
      some (result, ⟨after, (AutoGrowBuffer.addTailData_of_some buffer.wf execution).2.1⟩)

/-- What `PopHeadData` does after its callback. -/
def consume (popLen : Int) (buffer : SoundBuffer) : Int × SoundBuffer :=
  ((buffer.toAutoGrowBuffer.consume popLen).1,
    ⟨(buffer.toAutoGrowBuffer.consume popLen).2,
      (AutoGrowBuffer.consume_spec buffer.wf popLen).2.1⟩)

/-- `PopHeadData`, which offers the unread bytes. -/
def popHeadData {ω : Type} (popData : List UInt8 → ω → Option (Int × ω)) (buffer : SoundBuffer)
    (world : ω) : Option (Int × SoundBuffer × ω) := do
  let (popLen, world) ← popData buffer.unread world
  let (result, buffer) := buffer.consume popLen
  some (result, buffer, world)

/-- `PopHeadData` with a callback that acts on nothing else and always returns. -/
def popHead {ω : Type} (popData : List UInt8 → Int × ω) (buffer : SoundBuffer) :
    Int × SoundBuffer × ω :=
  let (popLen, answer) := popData buffer.unread
  let (result, buffer) := buffer.consume popLen
  (result, buffer, answer)

variable {buffer after : SoundBuffer} {data : CharSpan} {result : Int}

/-- The operation is that of the underlying buffer. -/
theorem addTailData_eq_some_iff :
    addTailData data buffer = some (result, after) ↔
      buffer.toAutoGrowBuffer.addTailData data = some (result, after.toAutoGrowBuffer) := by
  rw [addTailData]
  constructor
  · intro execution
    split at execution
    · exact absurd execution (by simp)
    · rename_i underlying
      cases execution
      exact underlying
  · intro underlying
    split
    · rename_i failed
      exact absurd (failed.symm.trans underlying) (by simp)
    · rename_i other
      obtain ⟨rfl, rfl⟩ := Prod.mk.inj (Option.some.inj (other.symm.trans underlying))
      rfl

/-- The operation is that of the underlying buffer. -/
theorem popHeadData_underlying {ω : Type} (popData : List UInt8 → ω → Option (Int × ω))
    (buffer : SoundBuffer) (world : ω) :
    buffer.toAutoGrowBuffer.popHeadData popData world =
      (popHeadData popData buffer world).map fun answer =>
        (answer.1, answer.2.1.toAutoGrowBuffer, answer.2.2) := by
  rw [AutoGrowBuffer.popHeadData_eq buffer.wf, popHeadData]
  cases popData buffer.unread world with
  | none => rfl
  | some answer => rfl

/-- The operation is `PopHeadData` in a world of its own. -/
theorem popHeadData_popHead {ω : Type} (popData : List UInt8 → Int × ω) (buffer : SoundBuffer)
    (world : ω) :
    popHeadData (fun offer _ => some (popData offer)) buffer world =
      some (popHead popData buffer) := rfl

@[simp]
theorem construct_unread (defaultLen : Nat) : (construct defaultLen).unread = [] :=
  AutoGrowBuffer.construct_unread defaultLen

theorem getSize_eq (buffer : SoundBuffer) : buffer.getSize = buffer.unread.length :=
  buffer.wf.getSize_eq

/-- An `AddTailData` that returns appends what it takes over. -/
theorem addTailData_of_some (execution : addTailData data buffer = some (result, after)) :
    result = addResult data ∧ after.unread = buffer.unread ++ added data := by
  obtain ⟨result_eq, -, unread_eq⟩ := AutoGrowBuffer.addTailData_of_some buffer.wf
    (addTailData_eq_some_iff.mp execution)
  exact ⟨result_eq, unread_eq⟩

/-- An `AddTailData` is defined while fewer than `2 ^ 30` bytes are queued. -/
theorem exists_addTailData (buffer : SoundBuffer) (data : CharSpan)
    (fits : buffer.unread.length + (added data).length < 2 ^ 30) :
    ∃ after, addTailData data buffer = some (addResult data, after) := by
  obtain ⟨after, stored, after_wf, -⟩ :=
    AutoGrowBuffer.exists_addTailData buffer.wf data (Nat.le_of_lt fits)
  exact ⟨⟨after, after_wf⟩, addTailData_eq_some_iff.mpr stored⟩

theorem consume_spec (popLen : Int) (buffer : SoundBuffer) :
    (buffer.consume popLen).1 = popResult popLen buffer.unread.length ∧
      (buffer.consume popLen).2.unread =
        buffer.unread.drop (popCount popLen buffer.unread.length) := by
  obtain ⟨result_eq, -, unread_eq⟩ := AutoGrowBuffer.consume_spec buffer.wf popLen
  exact ⟨result_eq, unread_eq⟩

/-- Something of a queue is left after a pop that succeeds. -/
theorem consume_leaves (value : Int) (buffer : SoundBuffer) :
    0 ≤ (buffer.consume value).1 ∧ (buffer.consume value).2.unread ≠ [] ↔
      0 ≤ value ∧ value < buffer.unread.length := by
  obtain ⟨result_eq, unread_eq⟩ := SoundBuffer.consume_spec value buffer
  rw [result_eq, unread_eq, Ne, List.drop_eq_nil_iff, AutoGrowBuffer.popResult,
    AutoGrowBuffer.popCount]
  split
  · omega
  · omega

/-- Nothing of a queue is left after a pop that succeeds. -/
theorem consume_empties (value : Int) (buffer : SoundBuffer) :
    0 ≤ (buffer.consume value).1 ∧ (buffer.consume value).2.unread = [] ↔
      value = buffer.unread.length := by
  obtain ⟨result_eq, unread_eq⟩ := SoundBuffer.consume_spec value buffer
  rw [result_eq, unread_eq, List.drop_eq_nil_iff, AutoGrowBuffer.popResult,
    AutoGrowBuffer.popCount]
  split
  · omega
  · omega

/-- A `PopHeadData` that returns has asked its callback once, about all unread bytes. -/
theorem popHeadData_eq_some_iff {ω : Type} {popData : List UInt8 → ω → Option (Int × ω)}
    {world next : ω} :
    popHeadData popData buffer world = some (result, after, next) ↔
      ∃ popLen, popData buffer.unread world = some (popLen, next) ∧
        buffer.consume popLen = (result, after) := by
  rw [popHeadData, Option.bind_eq_bind, Option.bind_eq_some_iff]
  constructor
  · rintro ⟨⟨popLen, world⟩, answer, finished⟩
    obtain ⟨rfl, rfl, rfl⟩ : _ = result ∧ _ = after ∧ world = next := by
      simpa using finished
    exact ⟨popLen, answer, rfl⟩
  · rintro ⟨popLen, answer, consumed⟩
    refine ⟨(popLen, next), answer, ?_⟩
    simp only [consumed]

/-- A callback that consumes the whole offer leaves nothing. -/
theorem consume_length (buffer : SoundBuffer) :
    (buffer.consume buffer.unread.length).1 = buffer.unread.length ∧
      (buffer.consume buffer.unread.length).2.unread = [] := by
  obtain ⟨result_eq, unread_eq⟩ := consume_spec buffer.unread.length buffer
  have count_eq : popCount buffer.unread.length buffer.unread.length = buffer.unread.length := by
    rw [popCount, if_neg (by omega), Int.toNat_natCast]
  constructor
  · rw [result_eq, popResult, if_neg (by omega)]
  · rw [unread_eq, count_eq, List.drop_length]

end SoundBuffer
end NetworkBase
