import NetworkBase.Dns.WalkPositions

/-!
# Whether the parser ends

Both loops of `ResponseParse` add an amount to an index of 32 bits that is read from the packet.
They move on as long as the amount is not zero and does not carry the index past `2 ^ 32`; they
end unless the lengths lead back to an index.
-/

namespace NetworkBase
namespace DnsProtocol

/-- Adding the amount moves the index on. -/
def Ahead (i amount : UInt32) : Prop := amount ≠ 0 ∧ i.toNat + amount.toNat < 2 ^ 32

/-- Every length on the walk is ahead. -/
structure Forward (buffer : Nat → UInt8) (len : UInt32) : Prop where
  labels : ∀ i, LabelAt buffer i → buffer i.toNat ≠ 0 →
    Ahead i (charOperand (buffer i.toNat) + 1)
  records : ∀ i, RecordAt buffer len i → i < len → i + 12 < len → lengthAt buffer i ≠ 4 →
    Ahead i (12 + lengthAt buffer i)

/-- The lengths never lead back to an index. -/
structure Straight (buffer : Nat → UInt8) (len : UInt32) : Prop where
  labels : ∀ i, LabelAt buffer i → ¬Relation.TransGen (LabelStep buffer) i i
  records : ∀ i, RecordAt buffer len i → ¬Relation.TransGen (RecordStep buffer len) i i

/-- Each iteration of both loops increases the index. -/
structure Progresses (buffer : Nat → UInt8) (len : UInt32) : Prop where
  labels : ∀ i next, WhileLoop.Reaches (skipName buffer) 12 i → skipName buffer i = .inl next →
    i < next
  records : ∀ zero i next, WhileLoop.Returns (skipName buffer) 12 zero → zero < len →
    WhileLoop.Reaches (nextRecord buffer len) (zero + (1 + 4)) i →
    nextRecord buffer len i = .inl next → i < next

/-- The parser returns. -/
def Finishes (buffer : Nat → UInt8) (len : UInt32) : Prop :=
  ∀ ip, ∃ fuel result, responseParse fuel buffer len ip = some result

variable {buffer : Nat → UInt8} {len : UInt32}

theorem lt_add_iff_ahead {i amount : UInt32} : i < i + amount ↔ Ahead i amount := by
  have i_lt := i.toNat_lt
  have amount_lt := amount.toNat_lt
  have zero_iff : amount = 0 ↔ amount.toNat = 0 := UInt32.toNat_inj.symm
  rw [UInt32.lt_iff_toNat_lt, UInt32.toNat_add, Ahead, ne_eq, zero_iff]
  omega

/-- Where the loops move on, the lengths are ahead. -/
theorem progresses_iff : Progresses buffer len ↔ Forward buffer len := by
  constructor
  · intro progresses
    constructor
    · intro i label more
      apply lt_add_iff_ahead.mp
      exact progresses.labels i _ (reaches_skipName_iff.mpr label) (by rw [skipName, if_pos more])
    · rintro i ⟨zero, ends, zero_lt, reaches⟩ inside more other
      have step : RecordStep buffer len i (i + 12 + lengthAt buffer i) :=
        ⟨inside, more, other, rfl⟩
      rw [← step_nextRecord] at step
      apply lt_add_iff_ahead.mp
      rw [← UInt32.add_assoc]
      exact progresses.records zero i _ (returns_skipName_iff.mpr ends) zero_lt
        (reaches_nextRecord_iff.mpr reaches) step
  · intro forward
    constructor
    · intro i next reaches step
      have labelled : LabelStep buffer i next := step_skipName ▸ step
      obtain ⟨more, rfl⟩ := labelled
      exact lt_add_iff_ahead.mpr (forward.labels i (reaches_skipName_iff.mp reaches) more)
    · intro zero i next returns zero_lt reaches step
      have recorded : RecordStep buffer len i next := step_nextRecord ▸ step
      obtain ⟨inside, more, other, rfl⟩ := recorded
      have record : RecordAt buffer len i :=
        ⟨zero, returns_skipName_iff.mp returns, zero_lt, reaches_nextRecord_iff.mp reaches⟩
      rw [UInt32.add_assoc]
      exact lt_add_iff_ahead.mpr (forward.records i record inside more other)

/-- Whatever the walk over the records ends with, the parser has a result. -/
theorem exists_finish (buffer : Nat → UInt8) (ip : List UInt8) (stop : RecordsEnd) :
    ∃ result, finish buffer ip stop = some result := by
  cases stop with
  | truncated => exact ⟨_, rfl⟩
  | exhausted => exact ⟨_, rfl⟩
  | address i =>
      have stored : MemoryBlock.Stored buffer i.toNat
          [buffer i.toNat, buffer (i.toNat + 1), buffer (i.toNat + 2), buffer (i.toNat + 3)] :=
        ⟨rfl, rfl, rfl, rfl, trivial⟩
      exact ⟨_, finish_address stored rfl ip⟩

/-- The parser returns if both loops do, the second one where it is entered. -/
theorem finishes_iff_loops :
    Finishes buffer len ↔
      (∃ zero, WhileLoop.Returns (skipName buffer) 12 zero) ∧
        ∀ zero, WhileLoop.Returns (skipName buffer) 12 zero → zero < len →
          ∃ stop, WhileLoop.Returns (nextRecord buffer len) (zero + (1 + 4)) stop := by
  constructor
  · intro finishes
    obtain ⟨fuel, result, execution⟩ := finishes []
    have skipped : ∃ zero, WhileLoop.Returns (skipName buffer) 12 zero := by
      rw [responseParse, Option.bind_eq_bind, Option.bind_eq_some_iff] at execution
      obtain ⟨zero, named, -⟩ := execution
      exact ⟨zero, fuel, named⟩
    refine ⟨skipped, ?_⟩
    intro zero returns inside
    have walked := (responseParse_iff_of_skipped returns (UInt32.not_le.mpr inside)).mp
      ⟨fuel, execution⟩
    obtain ⟨stop, stops, -⟩ := walked
    exact ⟨stop, stops⟩
  · rintro ⟨⟨zero, skipped⟩, walks⟩ ip
    by_cases inside : zero < len
    · obtain ⟨stop, stops⟩ := walks zero skipped inside
      obtain ⟨result, finished⟩ := exists_finish buffer ip stop
      have parsed : ∃ fuel, responseParse fuel buffer len ip = some result :=
        (responseParse_iff_of_skipped skipped (UInt32.not_le.mpr inside)).mpr
          ⟨stop, stops, finished⟩
      obtain ⟨fuel, execution⟩ := parsed
      exact ⟨fuel, result, execution⟩
    · obtain ⟨fuel, named⟩ := skipped
      refine ⟨fuel, (-1, ip), ?_⟩
      rw [responseParse, named, Option.bind_eq_bind, Option.bind_some,
        if_pos (UInt32.not_lt.mp inside)]

/-- There are finitely many indices. -/
theorem finite_index : Finite UInt32 :=
  Finite.of_injective UInt32.toFin fun _ _ => UInt32.toFin_inj.mp

/-- The parser returns unless the lengths lead back to an index. -/
theorem finishes_iff_straight : Finishes buffer len ↔ Straight buffer len := by
  have finite := finite_index
  rw [finishes_iff_loops, WhileLoop.exists_returns_iff]
  simp only [WhileLoop.exists_returns_iff, reaches_skipName_iff, reaches_nextRecord_iff,
    WhileLoop.Circles, step_skipName, step_nextRecord, returns_skipName_iff]
  constructor
  · rintro ⟨labels, records⟩
    exact ⟨labels, fun i ⟨zero, ends, inside, reaches⟩ => records zero ends inside i reaches⟩
  · intro straight
    exact ⟨straight.labels, fun zero ends inside i reaches =>
      straight.records i ⟨zero, ends, inside, reaches⟩⟩

/-- Loops that move on end. -/
theorem Progresses.finishes (progresses : Progresses buffer len) : Finishes buffer len := by
  have finite := finite_index
  rw [finishes_iff_loops, WhileLoop.exists_returns_iff]
  constructor
  · intro i reaches
    apply WhileLoop.not_circles_of_increasing UInt32.toNat reaches
    intro earlier later reached step
    exact UInt32.lt_iff_toNat_lt.mp (progresses.labels earlier later reached step)
  · intro zero returns inside
    rw [WhileLoop.exists_returns_iff]
    intro i reaches
    apply WhileLoop.not_circles_of_increasing UInt32.toNat reaches
    intro earlier later reached step
    exact UInt32.lt_iff_toNat_lt.mp
      (progresses.records zero earlier later returns inside reached step)

/-- Both loops move on and end if and only if every length on the walk is ahead of its index; and
the parser ends if and only if the lengths never lead back to an index. -/
theorem progresses_iff_forward (buffer : Nat → UInt8) (len : UInt32) :
    (Progresses buffer len ∧ Finishes buffer len ↔ Forward buffer len) ∧
      (Finishes buffer len ↔ Straight buffer len) := by
  refine ⟨?_, finishes_iff_straight⟩
  rw [← progresses_iff]
  exact ⟨And.left, fun progresses => ⟨progresses, progresses.finishes⟩⟩

/-- A header, and a label whose length is -1 as a signed character. -/
def hangingPacket (position : Nat) : UInt8 := if position = 12 then 0xFF else 0

/-- The loop over the labels stays at this length for ever. -/
theorem hangingPacket_hangs :
    (∀ fuel ip, responseParse fuel hangingPacket 13 ip = none) ∧ ¬Progresses hangingPacket 13 ∧
      ¬Finishes hangingPacket 13 := by
  have step : WhileLoop.Step (skipName hangingPacket) 12 12 := rfl
  have stuck (fuel : Nat) (ip : List UInt8) : responseParse fuel hangingPacket 13 ip = none := by
    have never : WhileLoop.run (skipName hangingPacket) fuel 12 = none := by
      by_contra returns
      obtain ⟨zero, named⟩ := Option.ne_none_iff_exists'.mp returns
      exact WhileLoop.not_returns_of_circles (Relation.TransGen.single step) ⟨fuel, named⟩
    rw [responseParse, never]
    rfl
  refine ⟨stuck, ?_, ?_⟩
  · intro progresses
    exact absurd (progresses.labels 12 12 .refl step) (UInt32.lt_irrefl 12)
  · intro finishes
    obtain ⟨fuel, result, execution⟩ := finishes []
    rw [stuck fuel []] at execution
    contradiction

end DnsProtocol
end NetworkBase
