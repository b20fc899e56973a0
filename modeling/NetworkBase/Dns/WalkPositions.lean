import NetworkBase.Dns.AnswerWalk

/-!
# The indices of the walk

The lengths that stand in a packet lead from label to label and from record to record, whether or
not there is a loop that follows them.  The two loops of `ResponseParse` visit just these indices,
so what a packet makes the parser do can be said about its lengths alone.
-/

namespace NetworkBase
namespace DnsProtocol

/-- The length of the label at `i` leads to `next`. -/
def LabelStep (buffer : Nat → UInt8) (i next : UInt32) : Prop :=
  buffer i.toNat ≠ 0 ∧ next = i + (charOperand (buffer i.toNat) + 1)

/-- The lengths of the labels behind the header lead to `i`. -/
def LabelAt (buffer : Nat → UInt8) : UInt32 → Prop := Relation.ReflTransGen (LabelStep buffer) 12

/-- The name of the question ends at `i`. -/
def NameEndsAt (buffer : Nat → UInt8) (i : UInt32) : Prop :=
  LabelAt buffer i ∧ buffer i.toNat = 0

/-- The length of the data of the record at `i`. -/
def lengthAt (buffer : Nat → UInt8) (i : UInt32) : UInt32 :=
  readLength (buffer (i + 10).toNat) (buffer (i + 11).toNat)

/-- The record at `i` is followed by one at `next`. -/
def RecordStep (buffer : Nat → UInt8) (len i next : UInt32) : Prop :=
  i < len ∧ i + 12 < len ∧ lengthAt buffer i ≠ 4 ∧ next = i + 12 + lengthAt buffer i

/-- The lengths of the records behind the question lead to `i`. -/
def RecordAt (buffer : Nat → UInt8) (len i : UInt32) : Prop :=
  ∃ zero, NameEndsAt buffer zero ∧ zero < len ∧
    Relation.ReflTransGen (RecordStep buffer len) (zero + (1 + 4)) i

variable {buffer : Nat → UInt8} {len i zero : UInt32}

/-! ## The loops visit these indices -/

theorem step_skipName : WhileLoop.Step (skipName buffer) = LabelStep buffer := by
  ext i next
  rw [WhileLoop.Step, LabelStep, skipName]
  by_cases more : buffer i.toNat ≠ 0
  · rw [if_pos more, Sum.inl.injEq, eq_comm]
    exact ⟨fun step => ⟨more, step⟩, fun step => step.2⟩
  · rw [if_neg more]
    exact ⟨fun step => absurd step (by simp), fun step => absurd step.1 more⟩

theorem reaches_skipName_iff : WhileLoop.Reaches (skipName buffer) 12 i ↔ LabelAt buffer i := by
  rw [WhileLoop.Reaches, step_skipName]
  rfl

/-- The loop over the labels returns the end of the name. -/
theorem returns_skipName_iff :
    WhileLoop.Returns (skipName buffer) 12 zero ↔ NameEndsAt buffer zero := by
  constructor
  · intro returns
    obtain ⟨last, reaches, done⟩ := returns.exists_last
    rw [skipName] at done
    split at done
    · contradiction
    · rename_i ends
      cases done
      exact ⟨reaches_skipName_iff.mp reaches, not_not.mp ends⟩
  · rintro ⟨label, ends⟩
    rw [WhileLoop.returns_iff_of_reaches (reaches_skipName_iff.mpr label)]
    exact WhileLoop.Returns.done (by rw [skipName, if_neg (not_not.mpr ends)])

/-- One iteration of the loop over the records. -/
theorem nextRecord_unfold (buffer : Nat → UInt8) (len i : UInt32) :
    nextRecord buffer len i =
      if i < len then
        if i + 12 ≥ len then .inr .truncated
        else if lengthAt buffer i = 4 then .inr (.address (i + 12))
        else .inl (i + 12 + lengthAt buffer i)
      else .inr .exhausted := by
  have at_length : i + (2 + 2 + 2 + 4) = i + 10 := rfl
  have at_low : i + 10 + 1 = i + 11 := UInt32.add_assoc i 10 1
  have at_data : i + 11 + 1 = i + 12 := UInt32.add_assoc i 11 1
  simp only [nextRecord, at_length, at_low, at_data]
  rfl

theorem step_nextRecord : WhileLoop.Step (nextRecord buffer len) = RecordStep buffer len := by
  ext i next
  rw [WhileLoop.Step, RecordStep, nextRecord_unfold]
  split_ifs with inside ended four
  · simp [UInt32.not_lt.mpr ended]
  · simp [four]
  · rw [Sum.inl.injEq, eq_comm]
    exact ⟨fun step => ⟨inside, UInt32.not_le.mp ended, four, step⟩, fun step => step.2.2.2⟩
  · simp [inside]

theorem reaches_nextRecord_iff {first : UInt32} :
    WhileLoop.Reaches (nextRecord buffer len) first i ↔
      Relation.ReflTransGen (RecordStep buffer len) first i := by
  rw [WhileLoop.Reaches, step_nextRecord]

end DnsProtocol
end NetworkBase
