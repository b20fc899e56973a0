import NetworkBase.Dns.DerailedWalk
import NetworkBase.Dns.GenuineAnswers
import NetworkBase.Dns.PacketBounds

/-!
# Packets that are read as they are

The format counts its lengths without a sign.  Where all of them are plain, the parser comes to the
labels and records that the format tells, and accepts the first record of length four.  So whether
it accepts only genuine addresses is a question about this one record.
-/

namespace NetworkBase
namespace DnsProtocol

/-- What a packet may hold: in the length of a label, in the first byte of the name of a record, and
in the two bytes of the length of its data. -/
structure Values where
  label : UInt8 → Prop
  owner : UInt8 → Prop
  length : UInt8 → UInt8 → Prop

/-- Labels and compressed names of the format, and lengths whose bytes have no sign. -/
def Values.plain : Values where
  label size := size.toNat ≤ 63
  owner byte := 0xC0 ≤ byte.toNat
  length high low := high.toNat < 128 ∧ low.toNat < 128

/-- Lengths whose bytes have no sign; the parser looks at nothing else. -/
def Values.unsigned : Values where
  label size := size.toNat < 128
  owner _ := True
  length high low := high.toNat < 128 ∧ low.toNat < 128

/-- All values are among the other ones. -/
structure Values.Within (values other : Values) : Prop where
  label : ∀ size, size ≠ 0 → values.label size → other.label size
  owner : ∀ byte, values.owner byte → other.owner byte
  length : ∀ high low, values.length high low → other.length high low

theorem Values.plain_within_unsigned : Values.plain.Within .unsigned where
  label size _ short := by
    change size.toNat ≤ 63 at short
    change size.toNat < 128
    omega
  owner _ _ := trivial
  length _ _ plain := plain

/-- The label at `i` is followed by what stands at `next`. -/
def LabelAfter (buffer : Nat → UInt8) (i next : Nat) : Prop :=
  buffer i ≠ 0 ∧ next = i + 1 + (buffer i).toNat

/-- The record at `i`, whose length is not four, is followed by the one at `next`. -/
def RecordAfter (buffer : Nat → UInt8) (i next : Nat) : Prop :=
  wordAt buffer (i + 10) ≠ 4 ∧ next = i + 12 + wordAt buffer (i + 10)

/-- The labels of the question lead to `i`. -/
def LabelIn (buffer : Nat → UInt8) : Nat → Prop := Relation.ReflTransGen (LabelAfter buffer) 12

/-- The question ends at `last`, as far as its lengths tell. -/
def EndsIn (buffer : Nat → UInt8) (last : Nat) : Prop := LabelIn buffer last ∧ buffer last = 0

/-- The records lead to `i`, and none in front of it has length four. -/
def RecordIn (buffer : Nat → UInt8) (i : Nat) : Prop :=
  ∃ last, EndsIn buffer last ∧ Relation.ReflTransGen (RecordAfter buffer) (last + 5) i

/-- The packet holds these values, up to the first record of length four whose data begins inside,
and its indices fit into 32 bits. -/
structure Reads (values : Values) (buffer : Nat → UInt8) (len : UInt32) : Prop where
  labels : ∀ i, LabelIn buffer i → buffer i ≠ 0 → values.label (buffer i)
  ends : ∃ last, EndsIn buffer last ∧ last + 5 < 2 ^ 32
  fits : ∀ i, RecordIn buffer i → i < len.toNat → i + 12 < 2 ^ 32
  records : ∀ i, RecordIn buffer i → i + 12 < len.toNat →
    values.owner (buffer i) ∧ values.length (buffer (i + 10)) (buffer (i + 11)) ∧
      i + 12 + wordAt buffer (i + 10) < 2 ^ 32

/-- The first record of length four is an address and lies wholly inside, or the first address
carries the same bytes by chance. -/
def Honest (buffer : Nat → UInt8) (len : UInt32) : Prop :=
  ∀ i, RecordIn buffer i → i + 12 < len.toNat → wordAt buffer (i + 10) = 4 →
    IsAddress buffer i ∧ i + 16 ≤ len.toNat ∨ ∃ other, FirstAddress buffer len.toNat other ∧
      addressAt buffer (i + 12) = addressAt buffer (other + 12)

variable {buffer : Nat → UInt8} {len : UInt32} {i last : Nat}

theorem Reads.mono {values other : Values} (reads : Reads values buffer len)
    (within : values.Within other) : Reads other buffer len where
  labels i label more := within.label _ more (reads.labels i label more)
  ends := reads.ends
  fits := reads.fits
  records i record inside := by
    obtain ⟨owner, length, fits⟩ := reads.records i record inside
    exact ⟨within.owner _ owner, within.length _ _ length, fits⟩

/-! ## The order of the indices -/

theorem le_of_labelAfter {first : Nat}
    (path : Relation.ReflTransGen (LabelAfter buffer) first i) : first ≤ i := by
  induction path with
  | refl => exact Nat.le_refl first
  | tail _ step ih =>
      obtain ⟨-, rfl⟩ := step
      omega

theorem le_of_recordAfter {first : Nat}
    (path : Relation.ReflTransGen (RecordAfter buffer) first i) : first ≤ i := by
  induction path with
  | refl => exact Nat.le_refl first
  | tail _ step ih =>
      obtain ⟨-, rfl⟩ := step
      omega

theorem labelAfter_rightUnique (buffer : Nat → UInt8) :
    Relator.RightUnique (LabelAfter buffer) := by
  rintro i next other ⟨-, rfl⟩ ⟨-, rfl⟩
  rfl

/-- All labels stand in front of the end of the question. -/
theorem LabelIn.le (label : LabelIn buffer i) (ends : EndsIn buffer last) : i ≤ last := by
  rcases Relation.ReflTransGen.total_of_right_unique (labelAfter_rightUnique buffer) label
    ends.1 with onward | onward
  · exact le_of_labelAfter onward
  · rcases Relation.ReflTransGen.cases_head onward with rfl | ⟨next, step, -⟩
    · exact Nat.le_refl last
    · exact absurd ends.2 step.1

theorem EndsIn.unique {other : Nat} (first : EndsIn buffer last) (second : EndsIn buffer other) :
    last = other :=
  Nat.le_antisymm (first.1.le second) (second.1.le first)

/-! ## The parser comes to the same indices -/

/-- The bytes of a plain length. -/
theorem toNat_lengthAt {index : UInt32} (fits : index.toNat + 12 < 2 ^ 32)
    (plain : Values.unsigned.length (buffer (index.toNat + 10)) (buffer (index.toNat + 11))) :
    (lengthAt buffer index).toNat = wordAt buffer (index.toNat + 10) := by
  have high : (index + 10).toNat = index.toNat + 10 :=
    toNat_add_of_lt (by change _ + 10 < _; omega)
  have low : (index + 11).toNat = index.toNat + 11 :=
    toNat_add_of_lt (by change _ + 11 < _; omega)
  rw [lengthAt, high, low, toNat_readLength_of_plain plain.1 plain.2, wordAt]

/-- What the parser adds to its index for a label without a sign. -/
theorem toNat_charOperand_succ {char : UInt8} (short : char.toNat < 128) :
    (charOperand char + 1).toNat = char.toNat + 1 := by
  rw [UInt32.toNat_add, toNat_charOperand, if_pos short]
  change (_ + 1) % _ = _
  omega

section Unsigned

variable (reads : Reads Values.unsigned buffer len)
include reads

/-- A label the parser comes to is one of the question. -/
theorem Reads.labelIn {index : UInt32} (label : LabelAt buffer index) :
    LabelIn buffer index.toNat := by
  obtain ⟨last, ends, fits⟩ := reads.ends
  induction label with
  | refl => exact .refl
  | @tail before after _ step ih =>
      obtain ⟨more, rfl⟩ := step
      have short : (buffer before.toNat).toNat < 128 := reads.labels _ ih more
      have next : LabelIn buffer (before.toNat + 1 + (buffer before.toNat).toNat) :=
        ih.tail ⟨more, rfl⟩
      have next_le := next.le ends
      have amount := toNat_charOperand_succ short
      rw [toNat_add_of_lt (by omega), amount, ← Nat.add_assoc, Nat.add_right_comm]
      exact next

/-- The parser comes to every label of the question. -/
theorem Reads.labelAt (label : LabelIn buffer i) :
    LabelAt buffer (UInt32.ofNat i) ∧ (UInt32.ofNat i).toNat = i := by
  obtain ⟨last, ends, fits⟩ := reads.ends
  induction label with
  | refl => exact ⟨.refl, rfl⟩
  | @tail before after path step ih =>
      obtain ⟨more, rfl⟩ := step
      obtain ⟨reached, same⟩ := ih
      have next_le := LabelIn.le (path.tail ⟨more, rfl⟩) ends
      have amount := toNat_charOperand_succ (reads.labels _ path more)
      have same_next : (UInt32.ofNat (before + 1 + (buffer before).toNat)).toNat =
          before + 1 + (buffer before).toNat :=
        UInt32.toNat_ofNat_of_lt' (by change _ < 2 ^ 32; omega)
      refine ⟨reached.tail ⟨by rw [same]; exact more, ?_⟩, same_next⟩
      apply UInt32.toNat_inj.mp
      rw [same_next, same, toNat_add_of_lt (by omega), amount, same]
      omega

/-- The parser ends the question where the format does. -/
theorem Reads.nameEndsAt_iff {zero : UInt32} :
    NameEndsAt buffer zero ↔ EndsIn buffer zero.toNat := by
  constructor
  · exact fun ends => ⟨reads.labelIn ends.1, ends.2⟩
  · intro ends
    obtain ⟨label, same⟩ := reads.labelAt ends.1
    have index_eq : UInt32.ofNat zero.toNat = zero := UInt32.toNat_inj.mp same
    rw [index_eq] at label
    exact ⟨label, ends.2⟩

/-- A record the parser comes to is one in front of which none has length four. -/
theorem Reads.recordIn {index : UInt32} (record : RecordAt buffer len index) :
    RecordIn buffer index.toNat := by
  obtain ⟨last, ends, fits⟩ := reads.ends
  obtain ⟨zero, named, -, path⟩ := record
  have zero_eq : zero.toNat = last := (reads.nameEndsAt_iff.mp named).unique ends
  have first_eq : (zero + (1 + 4)).toNat = last + 5 := by
    rw [toNat_add_of_lt (by change zero.toNat + 5 < 2 ^ 32; omega), zero_eq]
    rfl
  induction path with
  | refl => exact ⟨last, ends, by rw [first_eq]⟩
  | @tail before after _ step ih =>
      obtain ⟨inside, more, other, rfl⟩ := step
      have data_fits := reads.fits _ ih (UInt32.lt_iff_toNat_lt.mp inside)
      have data_eq : (before + 12).toNat = before.toNat + 12 := toNat_add_of_lt data_fits
      have data_inside : before.toNat + 12 < len.toNat := by
        rw [← data_eq]
        exact UInt32.lt_iff_toNat_lt.mp more
      obtain ⟨-, plain, next_fits⟩ := reads.records _ ih data_inside
      have length_eq := toNat_lengthAt data_fits plain
      obtain ⟨last', ends', front⟩ := ih
      refine ⟨last', ends', front.tail ⟨?_, ?_⟩⟩
      · rw [← length_eq]
        exact fun four => other (UInt32.toNat_inj.mp four)
      · rw [toNat_add_of_lt (by rw [data_eq, length_eq]; exact next_fits), data_eq, length_eq]

/-- The parser comes to each of these records that begins inside. -/
theorem Reads.recordAt (record : RecordIn buffer i) (inside : i < len.toNat) :
    RecordAt buffer len (UInt32.ofNat i) ∧ (UInt32.ofNat i).toNat = i := by
  obtain ⟨last, ends, fits⟩ := reads.ends
  obtain ⟨last', ends', path⟩ := record
  obtain rfl := ends.unique ends'
  have below := len.toNat_lt
  obtain ⟨label, zero_eq⟩ := reads.labelAt ends.1
  have named : NameEndsAt buffer (UInt32.ofNat last) := ⟨label, by rw [zero_eq]; exact ends.2⟩
  induction path with
  | refl =>
      have same : (UInt32.ofNat (last + 5)).toNat = last + 5 := UInt32.toNat_ofNat_of_lt' fits
      have first_eq : UInt32.ofNat last + (1 + 4) = UInt32.ofNat (last + 5) := by
        apply UInt32.toNat_inj.mp
        rw [toNat_add_of_lt (by rw [zero_eq]; exact fits), zero_eq, same]
        rfl
      refine ⟨⟨_, named, ?_, by rw [first_eq]⟩, same⟩
      rw [UInt32.lt_iff_toNat_lt, zero_eq]
      omega
  | @tail before after front step ih =>
      obtain ⟨other, rfl⟩ := step
      have before_in : RecordIn buffer before := ⟨last, ends, front⟩
      obtain ⟨⟨zero, ends_at, zero_lt, reached⟩, same⟩ := ih (by omega)
      have data_fits := reads.fits _ before_in (by omega)
      obtain ⟨-, plain, -⟩ := reads.records _ before_in (by omega)
      have same_next : (UInt32.ofNat (before + 12 + wordAt buffer (before + 10))).toNat =
          before + 12 + wordAt buffer (before + 10) :=
        UInt32.toNat_ofNat_of_lt' (by change _ < 2 ^ 32; omega)
      have length_eq : (lengthAt buffer (UInt32.ofNat before)).toNat =
          wordAt buffer (before + 10) := by
        rw [toNat_lengthAt (by rw [same]; exact data_fits) (by rw [same]; exact plain), same]
      have data_eq : (UInt32.ofNat before + 12).toNat = before + 12 := by
        rw [toNat_add_of_lt (by rw [same]; exact data_fits), same]
        rfl
      refine ⟨⟨zero, ends_at, zero_lt, reached.tail ⟨?_, ?_, ?_, ?_⟩⟩, same_next⟩
      · rw [UInt32.lt_iff_toNat_lt, same]
        omega
      · rw [UInt32.lt_iff_toNat_lt, data_eq]
        omega
      · intro four
        rw [four] at length_eq
        exact other length_eq.symm
      · apply UInt32.toNat_inj.mp
        rw [same_next, toNat_add_of_lt (by rw [data_eq, length_eq]; omega), data_eq, length_eq]

/-- What the parser finds is the first record of length four. -/
theorem Reads.foundAt_iff {index : UInt32} :
    FoundAt buffer len index ↔ RecordIn buffer index.toNat ∧ index.toNat + 12 < len.toNat ∧
      wordAt buffer (index.toNat + 10) = 4 := by
  constructor
  · rintro ⟨record, begins, more, four⟩
    have record_in := reads.recordIn record
    have data_fits := reads.fits _ record_in (UInt32.lt_iff_toNat_lt.mp begins)
    have inside : index.toNat + 12 < len.toNat := by
      have data_eq : (index + 12).toNat = index.toNat + 12 := toNat_add_of_lt data_fits
      rw [← data_eq]
      exact UInt32.lt_iff_toNat_lt.mp more
    refine ⟨record_in, inside, ?_⟩
    rw [← toNat_lengthAt data_fits (reads.records _ record_in inside).2.1, four]
    rfl
  · rintro ⟨record, inside, four⟩
    have data_fits := reads.fits _ record (by omega)
    obtain ⟨record_at, same⟩ := reads.recordAt record (by omega)
    have index_eq : UInt32.ofNat index.toNat = index := UInt32.toNat_inj.mp same
    rw [index_eq] at record_at
    have data_eq : (index + 12).toNat = index.toNat + 12 := toNat_add_of_lt data_fits
    refine ⟨record_at, ?_, ?_, ?_⟩
    · rw [UInt32.lt_iff_toNat_lt]
      omega
    · rw [UInt32.lt_iff_toNat_lt, data_eq]
      exact inside
    · apply UInt32.toNat_inj.mp
      rw [toNat_lengthAt data_fits (reads.records _ record inside).2.1, four]
      rfl

/-- Every length moves the parser on. -/
theorem Reads.forward : Forward buffer len := by
  obtain ⟨last, ends, fits⟩ := reads.ends
  constructor
  · intro index label more
    have label_in := reads.labelIn label
    have next_le := LabelIn.le (label_in.tail ⟨more, rfl⟩) ends
    have amount := toNat_charOperand_succ (reads.labels _ label_in more)
    refine ⟨fun none_added => ?_, by omega⟩
    rw [none_added] at amount
    cases amount
  · intro index record begins more _
    have record_in := reads.recordIn record
    have data_fits := reads.fits _ record_in (UInt32.lt_iff_toNat_lt.mp begins)
    have data_eq : (index + 12).toNat = index.toNat + 12 := toNat_add_of_lt data_fits
    have inside : index.toNat + 12 < len.toNat := by
      rw [← data_eq]
      exact UInt32.lt_iff_toNat_lt.mp more
    obtain ⟨-, plain, next_fits⟩ := reads.records _ record_in inside
    have amount : (12 + lengthAt buffer index).toNat =
        12 + wordAt buffer (index.toNat + 10) := by
      rw [toNat_add_of_lt (by rw [toNat_lengthAt data_fits plain]; change 12 + _ < _; omega),
        toNat_lengthAt data_fits plain]
      rfl
    refine ⟨fun none_added => ?_, by omega⟩
    rw [none_added] at amount
    have positive : (0 : UInt32).toNat = 0 := rfl
    omega

theorem Reads.straight : Straight buffer len :=
  finishes_iff_straight.mp (progresses_iff.mpr reads.forward).finishes

end Unsigned

section Plain

variable (reads : Reads Values.plain buffer len)
include reads

/-- The format comes to the first record of length four, too. -/
theorem Reads.firstAddress (record : RecordIn buffer i) (inside : i + 12 < len.toNat)
    (address : IsAddress buffer i) (whole : i + 16 ≤ len.toNat) :
    FirstAddress buffer len.toNat i := by
  obtain ⟨last, ends, path⟩ := record
  refine ⟨⟨last, ⟨?_, ends.2⟩, ?_⟩, (reads.records i ⟨last, ends, path⟩ inside).1, address, whole⟩
  · have labels : ∀ {index}, LabelIn buffer index →
        Relation.ReflTransGen (NextLabel buffer) 12 index := by
      intro index label
      induction label with
      | refl => exact .refl
      | tail front step ih =>
          obtain ⟨more, rfl⟩ := step
          have positive : 0 < (buffer _).toNat :=
            Nat.pos_of_ne_zero fun zero => more (UInt8.toNat_inj.mp zero)
          exact ih.tail ⟨positive, reads.labels _ front more, rfl⟩
    exact labels ends.1
  · clear address whole
    induction path with
    | refl => exact .refl
    | @tail before after front step ih =>
        obtain ⟨other, rfl⟩ := step
        have before_in : RecordIn buffer before := ⟨last, ends, front⟩
        obtain ⟨compressed, -, -⟩ := reads.records before before_in (by omega)
        exact (ih (by omega)).tail ⟨compressed, fun address => other address.2.2, rfl⟩

/-- A packet with such values is parsed for a genuine address only, if and only if its first record
of length four is one. -/
theorem Reads.acceptsGenuine_iff_honest : AcceptsGenuine buffer len ↔ Honest buffer len := by
  have bare := reads.mono Values.plain_within_unsigned
  rw [acceptsGenuine_iff]
  constructor
  · rintro ⟨-, genuine⟩ i record inside four
    obtain ⟨-, same⟩ := bare.recordAt record (by omega)
    have found : FoundAt buffer len (UInt32.ofNat i) := by
      rw [bare.foundAt_iff, same]
      exact ⟨record, inside, four⟩
    have data_eq : (UInt32.ofNat i + 12).toNat = i + 12 := by
      rw [toNat_add_of_lt (by rw [same]; exact reads.fits i record (by omega)), same]
      rfl
    rcases genuine _ found with first | chance
    · rw [same] at first
      exact .inl ⟨first.2.2.1, first.2.2.2⟩
    · rw [data_eq] at chance
      exact .inr chance
  · intro honest
    refine ⟨bare.straight, fun index found => ?_⟩
    obtain ⟨record, inside, four⟩ := bare.foundAt_iff.mp found
    have data_eq : (index + 12).toNat = index.toNat + 12 :=
      toNat_add_of_lt (reads.fits _ record (by omega))
    rcases honest _ record inside four with ⟨address, whole⟩ | chance
    · exact .inl (reads.firstAddress record inside address whole)
    · rw [← data_eq] at chance
      exact .inr chance

end Plain

/-! ## Other values -/

section Strange

variable {label owner : UInt8}

end Strange

section Circling

variable {high low : UInt8}

theorem RecordAt.step {buffer : Nat → UInt8} {len i next : UInt32} (record : RecordAt buffer len i)
    (step : RecordStep buffer len i next) : RecordAt buffer len next := by
  obtain ⟨zero, ends, inside, path⟩ := record
  exact ⟨zero, ends, inside, path.tail step⟩

end Circling

/-! ## Which values are read right -/

end DnsProtocol
end NetworkBase
