import NetworkBase.Dns.PlainPackets

/-!
# Answers that are read as they are

A well-formed answer whose records in front of the address have plain lengths holds plain values
only.  The parser does not leave its packet, moves on with every length, and accepts only the
address.
-/

namespace NetworkBase
namespace DnsProtocol

variable {buffer : Nat → UInt8}

/-- The number of a field in network order. -/
theorem wordAt_twoBytes {i : Nat} {field : UInt16}
    (stored : MemoryBlock.Stored buffer i (twoBytes field)) :
    wordAt buffer i = field.toNat := by
  obtain ⟨high, low, -⟩ := stored
  have field_lt := field.toNat_lt
  rw [wordAt, high, low]
  simp only [UInt16.toNat_toUInt8, UInt16.toNat_shiftRight]
  change 256 * (field.toNat >>> 8 % 2 ^ 8) + field.toNat % 2 ^ 8 = _
  rw [Nat.shiftRight_eq_div_pow]
  omega

/-- The labels of a question lead to its end, and all of them are short. -/
theorem labelAfter_labels {labels : List Label} {i : Nat}
    (stored : MemoryBlock.Stored buffer i (encodeLabels labels ++ [0])) :
    Relation.ReflTransGen (LabelAfter buffer) i (i + (encodeLabels labels).length) ∧
      buffer (i + (encodeLabels labels).length) = 0 ∧
      ∀ j, Relation.ReflTransGen (LabelAfter buffer) i j → buffer j ≠ 0 →
        (buffer j).toNat ≤ 63 := by
  induction labels generalizing i with
  | nil =>
      have zero : buffer i = 0 := stored.1
      refine ⟨.refl, zero, fun j path more => ?_⟩
      rcases Relation.ReflTransGen.cases_head path with rfl | ⟨next, step, -⟩
      · exact absurd zero more
      · exact absurd zero step.1
  | cons label labels ih =>
      have length_le := label.length_le
      have length_pos : 0 < label.bytes.length := List.length_pos_iff.mpr label.nonempty
      have first : buffer i = UInt8.ofNat label.bytes.length := stored.1
      have size_eq : (buffer i).toNat = label.bytes.length := by
        rw [first]
        simp
        omega
      have more : buffer i ≠ 0 := by
        intro zero
        rw [zero] at size_eq
        exact absurd size_eq.symm length_pos.ne'
      have shape : encodeLabels (label :: labels) ++ [0] =
          writeSection label.bytes ++ (encodeLabels labels ++ [0]) := by
        simp [encodeLabels]
      have behind : i + (writeSection label.bytes).length = i + 1 + label.bytes.length := by
        rw [writeSection, List.length_cons]
        omega
      have length_eq : i + (encodeLabels (label :: labels)).length =
          i + 1 + label.bytes.length + (encodeLabels labels).length := by
        simp [encodeLabels, writeSection]
        omega
      rw [shape, MemoryBlock.stored_append, behind] at stored
      obtain ⟨path, zero, short⟩ := ih stored.2
      have step : LabelAfter buffer i (i + 1 + label.bytes.length) := ⟨more, by rw [size_eq]⟩
      rw [length_eq]
      refine ⟨path.head step, zero, fun j onward other => ?_⟩
      rcases Relation.ReflTransGen.cases_head onward with rfl | ⟨next, first_step, rest⟩
      · rw [size_eq]
        exact length_le
      · rw [labelAfter_rightUnique buffer first_step step] at rest
        exact short j rest other

/-- What stands in a record. -/
structure RecordStored (buffer : Nat → UInt8) (i : Nat) (record : ResourceRecord) : Prop where
  owner : 0xC0 ≤ (buffer i).toNat
  type : wordAt buffer (i + 2) = record.type.toNat
  class_ : wordAt buffer (i + 4) = record.class_.toNat
  length : wordAt buffer (i + 10) = record.rdata.length

theorem recordStored_of_encode {i : Nat} {record : ResourceRecord} {rest : List UInt8}
    (stored : MemoryBlock.Stored buffer i (record.encode ++ rest)) :
    RecordStored buffer i record := by
  have shape : record.encode ++ rest = twoBytes record.owner ++ (twoBytes record.type ++
      (twoBytes record.class_ ++ (fourBytes record.ttl ++
        (twoBytes (UInt16.ofNat record.rdata.length) ++ (record.rdata ++ rest))))) := by
    simp [ResourceRecord.encode, ResourceRecord.fixedPart]
  rw [shape, MemoryBlock.stored_append, MemoryBlock.stored_append, MemoryBlock.stored_append,
    MemoryBlock.stored_append, MemoryBlock.stored_append] at stored
  obtain ⟨owner, type, class_, -, length, -⟩ := stored
  have length_lt := record.length_le
  have compressed : 49152 ≤ record.owner.toNat := record.compressed
  refine ⟨?_, ?_, ?_, ?_⟩
  · have owner_eq := wordAt_twoBytes owner
    have low_lt := (buffer (i + 1)).toNat_lt
    rw [wordAt] at owner_eq
    omega
  · exact wordAt_twoBytes type
  · exact wordAt_twoBytes class_
  · refine (wordAt_twoBytes length).trans ?_
    simp
    omega

/-- A plain length has no signs in its bytes. -/
theorem plain_of_wordAt {i : Nat} (plain : PlainLength (wordAt buffer i)) :
    Values.plain.length (buffer i) (buffer (i + 1)) := by
  have high_lt := (buffer i).toNat_lt
  have low_lt := (buffer (i + 1)).toNat_lt
  obtain ⟨high, low⟩ := plain
  rw [wordAt] at high low
  change (buffer i).toNat < 128 ∧ (buffer (i + 1)).toNat < 128
  omega

theorem length_encode (record : ResourceRecord) :
    record.encode.length = 12 + record.rdata.length := by
  simp [ResourceRecord.encode, ResourceRecord.fixedPart, twoBytes, fourBytes]
  omega

/-- Up to the first address the lengths lead from record to record. -/
theorem recordAfter_records {records : List ResourceRecord} {i len : Nat}
    (stored : MemoryBlock.Stored buffer i (records.flatMap ResourceRecord.encode))
    (inside : i + (records.flatMap ResourceRecord.encode).length = len)
    (plain : ∀ record ∈ records.takeWhile fun record => !record.isAddress,
      PlainLength record.rdata.length)
    {j : Nat} (path : Relation.ReflTransGen (RecordAfter buffer) i j) (begins : j < len) :
    ∃ record ∈ records, RecordStored buffer j record ∧ PlainLength record.rdata.length ∧
      j + 12 + record.rdata.length ≤ len := by
  induction records generalizing i with
  | nil =>
      have first_le := le_of_recordAfter path
      simp at inside
      omega
  | cons record records ih =>
      rw [List.flatMap_cons] at stored inside
      have here := recordStored_of_encode stored
      rw [List.length_append, length_encode] at inside
      have plain_here : PlainLength record.rdata.length := by
        by_cases four : record.rdata.length = 4
        · rw [four]
          exact ⟨by decide, by decide⟩
        · apply plain record
          have other : record.isAddress = false := by simp [ResourceRecord.isAddress, four]
          simp [other]
      rcases Relation.ReflTransGen.cases_head path with rfl | ⟨next, ⟨other, rfl⟩, rest⟩
      · exact ⟨record, List.mem_cons_self .., here, plain_here, by omega⟩
      · rw [here.length] at other rest
        have skipped : (!record.isAddress) = true := by simp [ResourceRecord.isAddress, other]
        rw [List.takeWhile_cons, if_pos skipped] at plain
        rw [MemoryBlock.stored_append, length_encode, ← Nat.add_assoc] at stored
        obtain ⟨found, mem, facts⟩ := ih stored.2 (by omega)
          (List.forall_mem_cons.mp plain).2 rest
        exact ⟨found, List.mem_cons_of_mem _ mem, facts⟩

section Answers

variable {response : Response}
  (stored : MemoryBlock.Stored buffer 0 response.packet)
  (plain : ∀ record ∈ response.beforeAnswer, PlainLength record.rdata.length)
include stored

/-- Where the question of an answer ends. -/
theorem Response.endsIn : ∃ last, EndsIn buffer last ∧
    last + 5 + (response.records.flatMap ResourceRecord.encode).length = response.packet.length ∧
    MemoryBlock.Stored buffer (last + 5) (response.records.flatMap ResourceRecord.encode) ∧
    ∀ j, LabelIn buffer j → buffer j ≠ 0 → (buffer j).toNat ≤ 63 := by
  have length_eq : response.packet.length =
      12 + (encodeLabels response.question.labels).length + 5 +
        (response.records.flatMap ResourceRecord.encode).length := by
    simp [Response.packet, packetOf, question_eq, response.header_length]
    omega
  rw [Response.packet, packetOf, question_eq, MemoryBlock.stored_append,
    MemoryBlock.stored_append, response.header_length] at stored
  obtain ⟨⟨-, question_stored⟩, records_stored⟩ := stored
  have shape : encodeLabels response.question.labels ++ [0, 0, 1, 0, 1] =
      (encodeLabels response.question.labels ++ [0]) ++ [0, 1, 0, 1] := by
    rw [List.append_assoc]
    rfl
  rw [shape, MemoryBlock.stored_append, Nat.zero_add] at question_stored
  obtain ⟨path, zero, short⟩ := labelAfter_labels question_stored.1
  refine ⟨_, ⟨path, zero⟩, length_eq.symm, ?_, short⟩
  have behind : 0 + (response.header ++
      (encodeLabels response.question.labels ++ [0, 0, 1, 0, 1])).length =
        12 + (encodeLabels response.question.labels).length + 5 := by
    simp [response.header_length]
    omega
  rw [behind] at records_stored
  exact records_stored

include plain

/-- Every record of an answer that the lengths lead to is one of its records. -/
theorem Response.recordIn {i : Nat} (record : RecordIn buffer i)
    (begins : i < response.packet.length) :
    ∃ found ∈ response.records, RecordStored buffer i found ∧ PlainLength found.rdata.length ∧
      i + 12 + found.rdata.length ≤ response.packet.length := by
  obtain ⟨last, ends, inside, records_stored, -⟩ := Response.endsIn stored
  obtain ⟨other, other_ends, path⟩ := record
  obtain rfl := ends.unique other_ends
  exact recordAfter_records records_stored inside plain path begins

/-- An answer holds plain values. -/
theorem Response.reads : Reads .plain buffer (UInt32.ofNat response.packet.length) := by
  have fits := response.fits
  have len_eq : (UInt32.ofNat response.packet.length).toNat = response.packet.length :=
    UInt32.toNat_ofNat_of_lt' fits
  change response.packet.length < 2 ^ 32 at fits
  obtain ⟨last, ends, inside, -, short⟩ := Response.endsIn stored
  constructor
  · exact short
  · exact ⟨last, ends, by omega⟩
  · intro i record begins
    obtain ⟨found, -, -, -, whole⟩ := Response.recordIn stored plain record (by omega)
    omega
  · intro i record begins
    obtain ⟨found, -, here, plain_here, whole⟩ := Response.recordIn stored plain record (by omega)
    rw [← here.length] at plain_here whole
    exact ⟨here.owner, plain_of_wordAt plain_here, by omega⟩

/-- The parser stays inside an answer. -/
theorem Response.not_cutOff : ¬CutOff buffer (UInt32.ofNat response.packet.length) := by
  have fits := response.fits
  have len_eq : (UInt32.ofNat response.packet.length).toNat = response.packet.length :=
    UInt32.toNat_ofNat_of_lt' fits
  change response.packet.length < 2 ^ 32 at fits
  obtain ⟨last, ends, inside, -, -⟩ := Response.endsIn stored
  have bare := (Response.reads stored plain).mono Values.plain_within_unsigned
  rintro (⟨i, label, outside⟩ | ⟨i, record, begins, outside⟩ |
    ⟨i, record, begins, more, four, outside⟩)
  · have label_le := (bare.labelIn label).le ends
    rw [UInt32.le_iff_toNat_le, len_eq] at outside
    omega
  · rw [UInt32.lt_iff_toNat_lt, len_eq] at begins
    obtain ⟨found, -, -, -, whole⟩ :=
      Response.recordIn stored plain (bare.recordIn record) begins
    have high : (i + 10).toNat = i.toNat + 10 :=
      toNat_add_of_lt (by change _ + 10 < _; omega)
    have low : (i + 11).toNat = i.toNat + 11 :=
      toNat_add_of_lt (by change _ + 11 < _; omega)
    rw [UInt32.lt_iff_toNat_lt, UInt32.lt_iff_toNat_lt, high, low, len_eq] at outside
    omega
  · rw [UInt32.lt_iff_toNat_lt, len_eq] at begins
    obtain ⟨found, -, here, -, whole⟩ :=
      Response.recordIn stored plain (bare.recordIn record) begins
    have data_eq : (i + 12).toNat = i.toNat + 12 :=
      toNat_add_of_lt (by change _ + 12 < _; omega)
    have found_four := (bare.foundAt_iff.mp
      ⟨record, UInt32.lt_iff_toNat_lt.mpr (by rw [len_eq]; exact begins), more, four⟩).2.2
    rw [here.length] at found_four
    rw [data_eq, len_eq] at outside
    omega

/-- Every length of an answer moves the parser on, so it ends. -/
theorem Response.forward : Forward buffer (UInt32.ofNat response.packet.length) :=
  ((Response.reads stored plain).mono Values.plain_within_unsigned).forward

theorem Response.straight : Straight buffer (UInt32.ofNat response.packet.length) :=
  ((Response.reads stored plain).mono Values.plain_within_unsigned).straight

/-- The first record of length four of an answer is an address. -/
theorem Response.honest
    (internet : ∀ record ∈ response.records, record.rdata.length = 4 → record.class_ = 1) :
    Honest buffer (UInt32.ofNat response.packet.length) := by
  have len_eq : (UInt32.ofNat response.packet.length).toNat = response.packet.length :=
    UInt32.toNat_ofNat_of_lt' response.fits
  intro i record inside four
  obtain ⟨found, mem, here, -, whole⟩ := Response.recordIn stored plain record (by omega)
  have found_four := here.length.symm.trans four
  left
  refine ⟨⟨?_, ?_, four⟩, by omega⟩
  · rw [here.type, found.address_of_length found_four]
    rfl
  · rw [here.class_, internet found mem found_four]
    rfl

/-- The parser accepts only the address of an answer. -/
theorem Response.acceptsGenuine
    (internet : ∀ record ∈ response.records, record.rdata.length = 4 → record.class_ = 1) :
    AcceptsGenuine buffer (UInt32.ofNat response.packet.length) :=
  (Response.reads stored plain).acceptsGenuine_iff_honest.mpr
    (Response.honest stored plain internet)

end Answers

end DnsProtocol
end NetworkBase
