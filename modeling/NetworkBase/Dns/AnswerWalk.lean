import NetworkBase.Dns.Response

/-!
# The walk to the answer

`ResponseParse` steps over the labels of the question and over the records by the lengths it reads.
It reads them through signed characters: a length whose two bytes are below 128 is read as it is,
and any other one sends the walk backwards.
-/

namespace NetworkBase
namespace DnsProtocol

/-- Both bytes of a length are read as they are. -/
def PlainLength (length : Nat) : Prop := length / 256 < 128 ∧ length % 256 < 128

/-- A character is extended with its sign. -/
theorem toNat_charOperand (char : UInt8) :
    (charOperand char).toNat =
      if char.toNat < 128 then char.toNat else 4294967040 + char.toNat := by
  have size := char.toNat_lt
  have widened : (charOperand char).toNat = (char.toBitVec.signExtend 32).toNat := rfl
  have same : char.toBitVec.toNat = char.toNat := rfl
  rw [widened, BitVec.toNat_signExtend, BitVec.msb_eq_decide, BitVec.toNat_setWidth, same]
  simp only [decide_eq_true_eq]
  split_ifs <;> omega

/-- The two bytes of a length. -/
theorem twoBytes_ofNat {length : Nat} (length_le : length ≤ 65535) :
    ∃ high low : UInt8, twoBytes (UInt16.ofNat length) = [high, low] ∧
      high.toNat = length / 256 ∧ low.toNat = length % 256 := by
  refine ⟨_, _, rfl, ?_, ?_⟩
  · simp [Nat.shiftRight_eq_div_pow]
    omega
  · simp

/-- The length that `ResponseParse` reads from two bytes. -/
def readLength (high low : UInt8) : UInt32 := charOperand high <<< 8 ||| charOperand low

/-- A plain length is read as it is. -/
theorem toNat_readLength_of_plain {high low : UInt8} (high_lt : high.toNat < 128)
    (low_lt : low.toNat < 128) : (readLength high low).toNat = 256 * high.toNat + low.toNat := by
  have shifted : (charOperand high <<< 8).toNat = high.toNat <<< 8 := by
    rw [UInt32.toNat_shiftLeft, toNat_charOperand, if_pos high_lt]
    simp [Nat.shiftLeft_eq]
    omega
  rw [readLength, UInt32.toNat_or, shifted, toNat_charOperand, if_pos low_lt,
    ← Nat.shiftLeft_add_eq_or_of_lt (low_lt.trans (by decide : 128 < 2 ^ 8)), Nat.shiftLeft_eq]
  omega

/-- A negative second byte covers the first one. -/
theorem readLength_of_low (high : UInt8) {low : UInt8} (negative : 128 ≤ low.toNat) :
    readLength high low = charOperand low := by
  have sign : low.toBitVec.msb = true := by
    rw [BitVec.msb_eq_decide]
    exact decide_eq_true negative
  apply UInt32.toBitVec_inj.mp
  have widened : (readLength high low).toBitVec =
      high.toBitVec.signExtend 32 <<< 8 ||| low.toBitVec.signExtend 32 := rfl
  have narrow : (charOperand low).toBitVec = low.toBitVec.signExtend 32 := rfl
  rw [widened, narrow]
  ext i bound
  simp only [BitVec.getElem_or, BitVec.getElem_shiftLeft, BitVec.getElem_signExtend]
  by_cases inside : i < 8
  · simp [inside]
  · simp [inside, sign]

/-- A negative first byte makes the length negative. -/
theorem toNat_readLength_of_high {high low : UInt8} (negative : 128 ≤ high.toNat)
    (low_lt : low.toNat < 128) :
    (readLength high low).toNat = 4294901760 + 256 * high.toNat + low.toNat := by
  have high_lt := high.toNat_lt
  have shifted : (charOperand high <<< 8).toNat = (16776960 + high.toNat) <<< 8 := by
    rw [UInt32.toNat_shiftLeft, toNat_charOperand, if_neg (by omega)]
    simp [Nat.shiftLeft_eq]
    omega
  rw [readLength, UInt32.toNat_or, shifted, toNat_charOperand, if_pos low_lt,
    ← Nat.shiftLeft_add_eq_or_of_lt (low_lt.trans (by decide : 128 < 2 ^ 8)), Nat.shiftLeft_eq]
  omega

/-- Indices do not wrap within a packet. -/
theorem toNat_add_of_lt {i step : UInt32} (fits : i.toNat + step.toNat < 2 ^ 32) :
    (i + step).toNat = i.toNat + step.toNat := by
  rw [UInt32.toNat_add, Nat.mod_eq_of_lt fits]

theorem toNat_next {i : UInt32} (fits : i.toNat + 1 < 2 ^ 32) : (i + 1).toNat = i.toNat + 1 :=
  toNat_add_of_lt fits

/-! ## The name of the question -/

/-- Skipping the name stops at the zero behind its labels. -/
theorem skipName_labels {buffer : Nat → UInt8} {labels : List Label} {len : UInt32} {i : UInt32}
    (stored : MemoryBlock.Stored buffer i.toNat (encodeLabels labels ++ [0]))
    (inside : i.toNat + (encodeLabels labels).length ≤ len.toNat) :
    ∃ stop : UInt32, WhileLoop.Returns (skipName buffer) i stop ∧
      stop.toNat = i.toNat + (encodeLabels labels).length := by
  induction labels generalizing i with
  | nil =>
      have zero : buffer i.toNat = 0 := stored.1
      exact ⟨i, WhileLoop.Returns.done (by rw [skipName, if_neg (not_not.mpr zero)]), rfl⟩
  | cons label labels ih =>
      have length_le := label.length_le
      have length_pos : 0 < label.bytes.length := List.length_pos_iff.mpr label.nonempty
      have length_eq : (encodeLabels (label :: labels)).length =
          1 + label.bytes.length + (encodeLabels labels).length := by
        simp [encodeLabels, writeSection]
        omega
      have first : buffer i.toNat = UInt8.ofNat label.bytes.length := stored.1
      have size_eq : (UInt8.ofNat label.bytes.length).toNat = label.bytes.length := by
        simp
        omega
      have step_eq : (charOperand (buffer i.toNat) + 1).toNat = label.bytes.length + 1 := by
        rw [first, UInt32.toNat_add, toNat_charOperand, size_eq, if_pos (by omega)]
        simp
        omega
      have next_eq : (i + (charOperand (buffer i.toNat) + 1)).toNat =
          i.toNat + (label.bytes.length + 1) := by
        have below := len.toNat_lt
        rw [toNat_add_of_lt (by rw [step_eq]; omega), step_eq]
      have continues : skipName buffer i =
          .inl (i + (charOperand (buffer i.toNat) + 1)) := by
        rw [skipName, if_pos]
        intro zero
        rw [first] at zero
        rw [zero] at size_eq
        simp at size_eq
        omega
      have shape : encodeLabels (label :: labels) ++ [0] =
          writeSection label.bytes ++ (encodeLabels labels ++ [0]) := by
        simp [encodeLabels]
      rw [shape, MemoryBlock.stored_append] at stored
      have behind : i.toNat + (writeSection label.bytes).length =
          (i + (charOperand (buffer i.toNat) + 1)).toNat := by
        rw [next_eq, writeSection, List.length_cons]
      rw [behind] at stored
      obtain ⟨stop, returns, stop_eq⟩ := ih stored.2 (by rw [next_eq]; omega)
      exact ⟨stop, returns.step continues, by rw [stop_eq, next_eq, length_eq]; omega⟩

/-! ## The records -/

/-- An iteration reads the length behind the fixed part of a record. -/
theorem nextRecord_eq {buffer : Nat → UInt8} (len : UInt32) {i : UInt32} {high low : UInt8}
    (stored : MemoryBlock.Stored buffer (i.toNat + 10) [high, low])
    (inside : i.toNat < len.toNat) (fits : i.toNat + 12 < 2 ^ 32) :
    ∃ data : UInt32, data.toNat = i.toNat + 12 ∧
      nextRecord buffer len i =
        if len.toNat ≤ data.toNat then .inr .truncated
        else if readLength high low = 4 then .inr (.address data)
        else .inl (data + readLength high low) := by
  have at_length : (i + (2 + 2 + 2 + 4)).toNat = i.toNat + 10 :=
    toNat_add_of_lt (by change i.toNat + 10 < 2 ^ 32; omega)
  have at_low : (i + (2 + 2 + 2 + 4) + 1).toNat = i.toNat + 11 := by
    rw [toNat_next (by rw [at_length]; omega), at_length]
  have at_data : (i + (2 + 2 + 2 + 4) + 1 + 1).toNat = i.toNat + 12 := by
    rw [toNat_next (by rw [at_low]; omega), at_low]
  obtain ⟨high_eq, low_eq, -⟩ := stored
  have started : i < len := by
    rw [UInt32.lt_iff_toNat_lt]
    omega
  refine ⟨i + (2 + 2 + 2 + 4) + 1 + 1, at_data, ?_⟩
  have ended : i + (2 + 2 + 2 + 4) + 1 + 1 ≥ len ↔
      len.toNat ≤ (i + (2 + 2 + 2 + 4) + 1 + 1).toNat := by
    rw [ge_iff_le, UInt32.le_iff_toNat_le]
  simp only [nextRecord, if_pos started, at_length, at_low, high_eq, low_eq, ended]
  rfl

/-- Only the empty list of records has no bytes. -/
theorem eq_nil_of_encode_eq_nil {records : List ResourceRecord}
    (no_bytes : records.flatMap ResourceRecord.encode = []) : records = [] := by
  cases records with
  | nil => rfl
  | cons record records => contradiction

/-- An iteration at a record of plain length finds the address, ends the walk, or goes on behind
the data. -/
theorem nextRecord_record {buffer : Nat → UInt8} {len i : UInt32} {record : ResourceRecord}
    {rest : List UInt8} (stored : MemoryBlock.Stored buffer i.toNat (record.encode ++ rest))
    (inside : i.toNat + (record.encode ++ rest).length = len.toNat)
    (plain : PlainLength record.rdata.length) :
    ∃ data : UInt32, MemoryBlock.Stored buffer data.toNat (record.rdata ++ rest) ∧
      data.toNat + (record.rdata ++ rest).length = len.toNat ∧
      (record.rdata.length = 4 → nextRecord buffer len i = .inr (.address data)) ∧
      (record.rdata.length ≠ 4 → nextRecord buffer len i = .inr .truncated ∧ rest = [] ∨
        ∃ next : UInt32, nextRecord buffer len i = .inl next ∧
          next.toNat = data.toNat + record.rdata.length) := by
  obtain ⟨high, low, bytes_eq, high_eq, low_eq⟩ := twoBytes_ofNat record.length_le
  have shape : record.encode ++ rest =
      record.fixedPart ++ ([high, low] ++ (record.rdata ++ rest)) := by
    simp [ResourceRecord.encode, bytes_eq]
  have fixed_length : record.fixedPart.length = 10 := rfl
  rw [shape, MemoryBlock.stored_append, MemoryBlock.stored_append, fixed_length] at stored
  obtain ⟨-, length_stored, data_stored⟩ := stored
  rw [shape] at inside
  simp only [List.length_append, fixed_length, List.length_cons, List.length_nil] at inside
  have below := len.toNat_lt
  obtain ⟨data, data_eq, step⟩ := nextRecord_eq len length_stored (by omega) (by omega)
  have data_at : i.toNat + 10 + [high, low].length = data.toNat := data_eq.symm
  rw [data_at] at data_stored
  obtain ⟨high_lt, low_lt⟩ := plain
  have length_eq : (readLength high low).toNat = record.rdata.length := by
    rw [toNat_readLength_of_plain (by omega) (by omega), high_eq, low_eq]
    omega
  have four_iff : readLength high low = 4 ↔ record.rdata.length = 4 := by
    rw [← length_eq]
    exact UInt32.toNat_inj.symm
  refine ⟨data, data_stored, by rw [List.length_append]; omega, ?_, ?_⟩
  · intro four
    rw [step, if_neg (by omega), if_pos (four_iff.mpr four)]
  · intro other
    by_cases ended : len.toNat ≤ data.toNat
    · left
      rw [step, if_pos ended]
      exact ⟨rfl, List.length_eq_zero_iff.mp (by omega)⟩
    · right
      rw [step, if_neg ended, if_neg (fun four => other (four_iff.mp four))]
      exact ⟨_, rfl, by rw [toNat_add_of_lt (by rw [length_eq]; omega), length_eq]⟩

/-- Where the walk over plain records ends. -/
theorem nextRecord_records {buffer : Nat → UInt8} {len : UInt32} {records : List ResourceRecord}
    {i : UInt32}
    (stored : MemoryBlock.Stored buffer i.toNat (records.flatMap ResourceRecord.encode))
    (inside : i.toNat + (records.flatMap ResourceRecord.encode).length = len.toNat)
    (plain : ∀ record ∈ records.takeWhile fun record => !record.isAddress,
      PlainLength record.rdata.length) :
    match records.find? ResourceRecord.isAddress with
    | some record => ∃ data : UInt32,
        WhileLoop.Returns (nextRecord buffer len) i (.address data) ∧
          MemoryBlock.Stored buffer data.toNat record.rdata
    | none => ∃ stop, WhileLoop.Returns (nextRecord buffer len) i stop ∧
        (stop = .truncated ∨ stop = .exhausted) := by
  induction records generalizing i with
  | nil =>
      have ended : ¬i < len := by
        rw [UInt32.lt_iff_toNat_lt]
        simp at inside
        omega
      exact ⟨.exhausted, WhileLoop.Returns.done (by rw [nextRecord, if_neg ended]), Or.inr rfl⟩
  | cons record records ih =>
      rw [List.flatMap_cons] at stored inside
      by_cases four : record.rdata.length = 4
      · -- The record is the answer.
        have address : record.isAddress = true := by
          simp [ResourceRecord.isAddress, four, record.address_of_length four]
        have four_plain : PlainLength record.rdata.length := by
          rw [four]
          exact ⟨by decide, by decide⟩
        obtain ⟨data, data_stored, -, found, -⟩ := nextRecord_record stored inside four_plain
        rw [List.find?_cons_of_pos address]
        exact ⟨data, WhileLoop.Returns.done (found four),
          ((MemoryBlock.stored_append _ _ _ _).mp data_stored).1⟩
      · have other : ¬record.isAddress = true := by simp [ResourceRecord.isAddress, four]
        have skipped : (!record.isAddress) = true := by simpa using other
        rw [List.takeWhile_cons, if_pos skipped] at plain
        obtain ⟨here, plain_rest⟩ := List.forall_mem_cons.mp plain
        obtain ⟨data, data_stored, data_inside, -, goes_on⟩ :=
          nextRecord_record stored inside here
        rw [MemoryBlock.stored_append] at data_stored
        rw [List.length_append] at data_inside
        rw [List.find?_cons_of_neg other]
        rcases goes_on four with ⟨step, no_bytes⟩ | ⟨next, step, next_eq⟩
        · -- An empty record ends the packet.
          obtain rfl := eq_nil_of_encode_eq_nil no_bytes
          exact ⟨.truncated, WhileLoop.Returns.done step, Or.inl rfl⟩
        · have rest := ih (by rw [next_eq]; exact data_stored.2) (by omega) plain_rest
          cases found : records.find? ResourceRecord.isAddress with
          | some answer =>
              rw [found] at rest
              obtain ⟨at_answer, returns, answer_stored⟩ := rest
              exact ⟨at_answer, returns.step step, answer_stored⟩
          | none =>
              rw [found] at rest
              obtain ⟨stop, returns, no_address⟩ := rest
              exact ⟨stop, returns.step step, no_address⟩

/-! ## The whole parser -/

/-- A walk that ends without an address leaves `ip` as it is. -/
theorem finish_of_no_address {buffer : Nat → UInt8} {ip : List UInt8} {stop : RecordsEnd}
    (ended : stop = .truncated ∨ stop = .exhausted) : finish buffer ip stop = some (-1, ip) := by
  rcases ended with rfl | rfl
  · rfl
  · rfl

/-- The parser has one result. -/
theorem responseParse_unique {buffer : Nat → UInt8} {len : UInt32} {ip : List UInt8}
    {fuel more : Nat} {result other : Int × List UInt8}
    (first : responseParse fuel buffer len ip = some result)
    (second : responseParse more buffer len ip = some other) : result = other := by
  simp only [responseParse, Option.bind_eq_bind, Option.bind_eq_some_iff] at first second
  obtain ⟨i, named, first⟩ := first
  obtain ⟨i', named', second⟩ := second
  obtain rfl : i = i' := WhileLoop.Returns.unique ⟨fuel, named⟩ ⟨more, named'⟩
  by_cases outside : i ≥ len
  · rw [if_pos outside] at first second
    exact Option.some.inj (first.symm.trans second)
  · rw [if_neg outside, Option.bind_eq_some_iff] at first second
    obtain ⟨stop, walked, first⟩ := first
    obtain ⟨stop', walked', second⟩ := second
    obtain rfl : stop = stop' := WhileLoop.Returns.unique ⟨fuel, walked⟩ ⟨more, walked'⟩
    exact Option.some.inj (first.symm.trans second)

/-- The question is skipped, and the records lie behind it. -/
theorem skipName_question {response : Response} {buffer : Nat → UInt8}
    (stored : MemoryBlock.Stored buffer 0 response.packet) :
    ∃ zero : UInt32, WhileLoop.Returns (skipName buffer) 12 zero ∧
      zero.toNat + 5 + (response.records.flatMap ResourceRecord.encode).length =
        response.packet.length ∧
      MemoryBlock.Stored buffer (zero.toNat + 5)
        (response.records.flatMap ResourceRecord.encode) := by
  have length_eq : response.packet.length = 12 +
      ((encodeLabels response.question.labels).length + 5) +
        (response.records.flatMap ResourceRecord.encode).length := by
    simp [Response.packet, packetOf, question_eq, response.header_length]
    omega
  have len_eq : (UInt32.ofNat response.packet.length).toNat = response.packet.length :=
    UInt32.toNat_ofNat_of_lt' response.fits
  rw [Response.packet, packetOf, question_eq, MemoryBlock.stored_append,
    MemoryBlock.stored_append, response.header_length] at stored
  obtain ⟨⟨-, question_stored⟩, records_stored⟩ := stored
  have name_stored : MemoryBlock.Stored buffer (12 : UInt32).toNat
      (encodeLabels response.question.labels ++ [0]) := by
    have shape : encodeLabels response.question.labels ++ [0, 0, 1, 0, 1] =
        (encodeLabels response.question.labels ++ [0]) ++ [0, 1, 0, 1] := by
      rw [List.append_assoc]
      rfl
    rw [shape, MemoryBlock.stored_append] at question_stored
    exact question_stored.1
  have name_inside : (12 : UInt32).toNat + (encodeLabels response.question.labels).length ≤
      (UInt32.ofNat response.packet.length).toNat := by
    rw [len_eq, length_eq]
    change 12 + _ ≤ _
    omega
  obtain ⟨zero, skipped, zero_eq⟩ := skipName_labels name_stored name_inside
  have zero_at : zero.toNat = 12 + (encodeLabels response.question.labels).length := zero_eq
  have behind : 0 + (response.header ++
      (encodeLabels response.question.labels ++ [0, 0, 1, 0, 1])).length = zero.toNat + 5 := by
    rw [zero_at]
    simp [response.header_length]
    omega
  rw [behind] at records_stored
  exact ⟨zero, skipped, by omega, records_stored⟩

/-- Behind the name, the parser does what the walk over the records leads to. -/
theorem responseParse_iff_of_skipped {buffer : Nat → UInt8} {len zero : UInt32}
    {ip : List UInt8} {result : Int × List UInt8}
    (skipped : WhileLoop.Returns (skipName buffer) 12 zero) (inside : ¬zero ≥ len) :
    (∃ fuel, responseParse fuel buffer len ip = some result) ↔
      ∃ stop, WhileLoop.Returns (nextRecord buffer len) (zero + (1 + 4)) stop ∧
        finish buffer ip stop = some result := by
  constructor
  · rintro ⟨fuel, execution⟩
    rw [responseParse, Option.bind_eq_bind, Option.bind_eq_some_iff] at execution
    obtain ⟨i, named, execution⟩ := execution
    obtain rfl : i = zero := WhileLoop.Returns.unique ⟨fuel, named⟩ skipped
    rw [if_neg inside, Option.bind_eq_bind, Option.bind_eq_some_iff] at execution
    obtain ⟨stop, walked, finished⟩ := execution
    exact ⟨stop, ⟨fuel, walked⟩, finished⟩
  · rintro ⟨stop, ⟨walkFuel, walked⟩, finished⟩
    obtain ⟨nameFuel, named⟩ := skipped
    refine ⟨max nameFuel walkFuel, ?_⟩
    rw [responseParse, WhileLoop.run_mono (Nat.le_max_left _ _) named]
    simp only [Option.bind_eq_bind, Option.bind_some, if_neg inside]
    rw [WhileLoop.run_mono (Nat.le_max_right _ _) walked, Option.bind_some]
    exact finished

/-- The parser does what the walk over the records leads to; the walk starts behind the question. -/
theorem responseParse_iff_walk {response : Response} {buffer : Nat → UInt8}
    (stored : MemoryBlock.Stored buffer 0 response.packet) :
    ∃ first : UInt32,
      first.toNat + (response.records.flatMap ResourceRecord.encode).length =
        response.packet.length ∧
      MemoryBlock.Stored buffer first.toNat
        (response.records.flatMap ResourceRecord.encode) ∧
      ∀ ip result,
        (∃ fuel, responseParse fuel buffer (UInt32.ofNat response.packet.length) ip =
          some result) ↔
        ∃ stop, WhileLoop.Returns (nextRecord buffer (UInt32.ofNat response.packet.length))
          first stop ∧ finish buffer ip stop = some result := by
  have fits : response.packet.length < 2 ^ 32 := response.fits
  obtain ⟨zero, skipped, whole, records_stored⟩ := skipName_question stored
  have first_eq : (zero + (1 + 4)).toNat = zero.toNat + 5 :=
    toNat_add_of_lt (by change zero.toNat + 5 < 2 ^ 32; omega)
  have inside : ¬zero ≥ UInt32.ofNat response.packet.length := by
    rw [ge_iff_le, UInt32.le_iff_toNat_le, UInt32.toNat_ofNat_of_lt' fits]
    omega
  refine ⟨zero + (1 + 4), by omega, ?_, ?_⟩
  · rw [first_eq]
    exact records_stored
  · intro ip result
    exact responseParse_iff_of_skipped skipped inside

/-- The address of a record is turned into its dotted decimal form. -/
theorem finish_address {buffer : Nat → UInt8} {data : UInt32} {rdata : List UInt8}
    (stored : MemoryBlock.Stored buffer data.toNat rdata) (four : rdata.length = 4)
    (ip : List UInt8) : finish buffer ip (.address data) = some (0, dotted rdata) := by
  obtain ⟨a, b, c, d, rfl⟩ := List.length_eq_four.mp four
  obtain ⟨a_eq, b_eq, c_eq, d_eq, -⟩ := stored
  have nonempty : [a, b, c, d] ≠ [] := List.cons_ne_nil a _
  have roomy : 4 * [a, b, c, d].length < dnsLen := (by decide : 4 * 4 < 32)
  obtain ⟨rest, written⟩ := intToStr_spec nonempty roomy
  have text := takeWhile_text (zero_notMem_dotted nonempty) rest
  simp only [finish, a_eq, b_eq, c_eq, d_eq, written, Option.bind_eq_bind, Option.bind_some, text]

/-- An answer whose records in front of the first address have plain lengths is parsed right. -/
theorem parsedRight_of_plain {response : Response}
    (plain : ∀ record ∈ response.beforeAnswer, PlainLength record.rdata.length) :
    response.ParsedRight := by
  intro buffer ip stored
  obtain ⟨first, inside, records_stored, parse⟩ := responseParse_iff_walk stored
  have len_eq : (UInt32.ofNat response.packet.length).toNat = response.packet.length :=
    UInt32.toNat_ofNat_of_lt' response.fits
  have walk := nextRecord_records records_stored (inside.trans len_eq.symm) plain
  rw [Response.expected, Response.answer]
  cases found : response.records.find? ResourceRecord.isAddress with
  | some record =>
      rw [found] at walk
      obtain ⟨data, returns, data_stored⟩ := walk
      have address := List.find?_some found
      have four : record.rdata.length = 4 := by
        simp [ResourceRecord.isAddress] at address
        exact address.2
      exact (parse ip _).mpr ⟨.address data, returns, finish_address data_stored four ip⟩
  | none =>
      rw [found] at walk
      obtain ⟨stop, returns, no_address⟩ := walk
      exact (parse ip _).mpr ⟨stop, returns, finish_of_no_address no_address⟩

end DnsProtocol
end NetworkBase
