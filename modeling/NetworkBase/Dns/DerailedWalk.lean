import NetworkBase.Dns.AnswerWalk

/-!
# Lengths that derail the walk

For every length with a byte from 128 on there is an answer whose only other record has this
length and whose address the parser misses.  The bytes around the length are chosen so that the
walk, once sent backwards, circles in front of the record or leaves the packet.
-/

namespace NetworkBase
namespace DnsProtocol

theorem not_plainLength_four {length : Nat} (bent : ¬PlainLength length) : length ≠ 4 := by
  rintro rfl
  exact bent ⟨by decide, by decide⟩

theorem le_of_not_plainLength {length : Nat} (bent : ¬PlainLength length) : 128 ≤ length := by
  by_contra short
  exact bent ⟨by omega, by omega⟩

/-- The address of the derailing answers. -/
def plainAddress : ResourceRecord where
  owner := 0xC00C
  type := 1
  class_ := 1
  ttl := 0
  rdata := [1, 2, 3, 4]
  compressed := by decide
  length_le := by decide
  address_of_length _ := rfl

/-- A record of the given length; all its bytes that are free are negative. -/
def bentRecord (length : Nat) (length_le : length ≤ 65535) (bent : ¬PlainLength length) :
    ResourceRecord where
  owner := 0xC080
  type := 0x8080
  class_ := 0x8080
  ttl := 0x80808080
  rdata := List.replicate length 0x80
  compressed := by decide
  length_le := by rwa [List.length_replicate]
  address_of_length four := by
    rw [List.length_replicate] at four
    exact absurd four (not_plainLength_four bent)

/-- A name of one byte. -/
def nameOfByte (byte : UInt8) (plain : byte ≠ dot ∧ byte ≠ 0) : DomainName where
  labels :=
    [{ bytes := [byte]
       nonempty := List.cons_ne_nil byte []
       length_le := Nat.le_add_left 1 62
       plain := List.forall_mem_singleton.mpr plain }]
  nonempty := List.cons_ne_nil _ _

/-- The name that the derailing answers are about. -/
def bentName : DomainName := nameOfByte 0x80 (by decide)

/-- Everything in front of the data of the first record, whose length has these bytes. -/
def bentFront (high low : UInt8) : List UInt8 :=
  [0x80, 0x80, 0x80, 0x80, 0x80, 0x80, 0x80, 0x80, 0x80, 0x80, 0x80, 0x80, 1, 0x80, 0, 0, 1, 0, 1,
    0xC0, 0x80, 0x80, 0x80, 0x80, 0x80, 0x80, 0x80, 0x80, 0x80, high, low]

/-- The bytes of a derailing answer. -/
def bentPacket (length : Nat) (high low : UInt8) : List UInt8 :=
  bentFront high low ++ (List.replicate length 0x80 ++ plainAddress.encode)

theorem length_bentPacket (length : Nat) (high low : UInt8) :
    (bentPacket length high low).length = 47 + length := by
  simp [bentPacket, bentFront, plainAddress, ResourceRecord.encode, ResourceRecord.fixedPart,
    twoBytes, fourBytes]
  omega

theorem packetOf_bent {length : Nat} (length_le : length ≤ 65535) (bent : ¬PlainLength length)
    {high low : UInt8} (bytes_eq : twoBytes (UInt16.ofNat length) = [high, low]) :
    packetOf (List.replicate 12 0x80) bentName
        [bentRecord length length_le bent, plainAddress] = bentPacket length high low := by
  have record_eq : (bentRecord length length_le bent).encode =
      [0xC0, 0x80, 0x80, 0x80, 0x80, 0x80, 0x80, 0x80, 0x80, 0x80] ++ [high, low] ++
        List.replicate length 0x80 := by
    have fixed_eq : twoBytes 0xC080 ++ twoBytes 0x8080 ++ twoBytes 0x8080 ++
        fourBytes 0x80808080 = [0xC0, 0x80, 0x80, 0x80, 0x80, 0x80, 0x80, 0x80, 0x80, 0x80] := by
      decide
    rw [← bytes_eq, ← fixed_eq, ResourceRecord.encode]
    simp only [ResourceRecord.fixedPart, bentRecord, List.length_replicate]
  rw [packetOf, question_eq, List.flatMap_cons, record_eq]
  simp only [List.flatMap_cons, List.flatMap_nil, List.append_nil, List.append_assoc]
  rfl

/-- The memory in which the answer lies. -/
def bentMemory (length : Nat) (high low : UInt8) (position : Nat) : UInt8 :=
  ((bentPacket length high low)[position]?).getD 0x80

section Steps

variable {length : Nat} {high low : UInt8}

theorem bentMemory_front {position : Nat} (before : position < 31) :
    bentMemory length high low position = ((bentFront high low)[position]?).getD 0x80 := by
  rw [bentMemory, bentPacket, List.getElem?_append_left before]

theorem bentMemory_data {position : Nat} (behind : 31 ≤ position)
    (within : position < 31 + length) :
    bentMemory length high low position = 0x80 := by
  have inside : position - (bentFront high low).length < length := by
    change position - 31 < length
    omega
  rw [bentMemory, bentPacket, List.getElem?_append_right behind, List.getElem?_append_left,
    List.getElem?_replicate_of_lt inside, Option.getD_some]
  rwa [List.length_replicate]

/-- The bytes an iteration takes for a length when it starts in front of the record's data. -/
theorem bentMemory_lengths (high low : UInt8) (large : 128 ≤ length) {i : Nat} (i_le : i ≤ 30) :
    bentMemory length high low (i + 11) = 0x80 ∨
      (bentMemory length high low (i + 10) = 0x80 ∧
        (bentMemory length high low (i + 11) = 1 ∨ bentMemory length high low (i + 11) = 0)) ∨
      (i = 4 ∧ bentMemory length high low (i + 10) = 0 ∧
        bentMemory length high low (i + 11) = 0) ∨
      ((i = 5 ∨ i = 7) ∧ bentMemory length high low (i + 10) = 0 ∧
        bentMemory length high low (i + 11) = 1) ∨
      (i = 6 ∧ bentMemory length high low (i + 10) = 1 ∧
        bentMemory length high low (i + 11) = 0) ∨
      (i = 8 ∧ bentMemory length high low (i + 11) = 0xC0) ∨
      (i = 18 ∧ bentMemory length high low (i + 10) = 0x80 ∧
        bentMemory length high low (i + 11) = high) ∨
      (i = 19 ∧ bentMemory length high low (i + 10) = high ∧
        bentMemory length high low (i + 11) = low) := by
  by_cases front : i + 11 < 31
  · rw [bentMemory_front front, bentMemory_front (by omega)]
    interval_cases i <;> simp [bentFront]
  · exact Or.inl (bentMemory_data (by omega) (by omega))

/-- An iteration that reads another length than four inside the packet goes on behind it. -/
theorem nextRecord_continues {buffer : Nat → UInt8} {len i : UInt32} {amount : Nat}
    (amount_eq :
      (readLength (buffer (i.toNat + 10)) (buffer (i.toNat + 11))).toNat = amount)
    (inside : i.toNat + 12 < len.toNat) (no_four : amount ≠ 4) :
    ∃ next, nextRecord buffer len i = .inl next ∧
      next.toNat = (i.toNat + 12 + amount) % 2 ^ 32 := by
  have below := len.toNat_lt
  have stored : MemoryBlock.Stored buffer (i.toNat + 10)
      [buffer (i.toNat + 10), buffer (i.toNat + 11)] := ⟨rfl, rfl, trivial⟩
  obtain ⟨data, data_eq, step⟩ := nextRecord_eq len stored (by omega) (by omega)
  have other : ¬readLength (buffer (i.toNat + 10)) (buffer (i.toNat + 11)) = 4 := by
    intro four
    rw [four] at amount_eq
    exact no_four amount_eq.symm
  rw [if_neg (by omega), if_neg other] at step
  exact ⟨_, step, by rw [UInt32.toNat_add, data_eq, amount_eq]⟩

/-- The length that an iteration takes from a negative second byte. -/
theorem toNat_readLength_negative (first : UInt8) {second byte : UInt8} (second_eq : second = byte)
    (negative : 128 ≤ byte.toNat) :
    (readLength first second).toNat = 4294967040 + byte.toNat := by
  rw [second_eq, readLength_of_low first negative, toNat_charOperand,
    if_neg (Nat.not_lt.mpr negative)]

/-- The length that an iteration takes from a negative first byte. -/
theorem toNat_readLength_negative_first {first second byte next : UInt8} (first_eq : first = byte)
    (second_eq : second = next) (negative : 128 ≤ byte.toNat) (positive : next.toNat < 128) :
    (readLength first second).toNat = 4294901760 + 256 * byte.toNat + next.toNat := by
  rw [first_eq, second_eq, toNat_readLength_of_high negative positive]

/-- A position in front of the data of the first record, within it at one of the spots that the
walk comes back from, or outside the packet. -/
def Lost (length position : Nat) : Prop :=
  position ≤ 30 ∧ (position = 6 → length = 231 ∨ 487 ≤ length) ∨
    487 ≤ length ∧ (position = 274 ∨ position = 158 ∨ position = 42) ∨
    length = 231 ∧ position = 274 ∨ 47 + length ≤ position

/-- A step over more than any packet leads outside. -/
theorem lost_of_step_over {position amount : Nat} (length_le : length ≤ 65535)
    (wide : 65582 ≤ amount) (fits : position + 12 + amount < 2 ^ 32) :
    Lost length ((position + 12 + amount) % 2 ^ 32) := by
  rw [Nat.mod_eq_of_lt fits]
  right; right; right
  omega

/-- A step that a negative byte stands for leads in front of the data or outside. -/
theorem lost_of_step_back {position : Nat} {byte : UInt8} (length_le : length ≤ 65535)
    (near : position ≤ 19)
    (sixth : position + 12 + byte.toNat = 262 → length = 231 ∨ 487 ≤ length) :
    Lost length ((position + 12 + (4294967040 + byte.toNat)) % 2 ^ 32) := by
  have byte_lt := byte.toNat_lt
  by_cases within : 256 ≤ position + 12 + byte.toNat
  · have wrapped : (position + 12 + (4294967040 + byte.toNat)) % 2 ^ 32 =
        position + 12 + byte.toNat - 256 := by omega
    rw [wrapped]
    exact Or.inl ⟨by omega, fun six => sixth (by omega)⟩
  · exact lost_of_step_over length_le (by omega) (by omega)

/-- In front of the data, the walk turns back, moves on to such a spot, or leaves the packet. -/
theorem lost_front {len i : UInt32} (bent : ¬PlainLength length) (length_le : length ≤ 65535)
    (high_eq : high.toNat = length / 256) (low_eq : low.toNat = length % 256)
    (len_eq : len.toNat = 47 + length) (i_le : i.toNat ≤ 30)
    (sixth : i.toNat = 6 → length = 231 ∨ 487 ≤ length) :
    ∃ next, nextRecord (bentMemory length high low) len i = .inl next ∧
      Lost length next.toNat := by
  have large := le_of_not_plainLength bent
  have inside : i.toNat + 12 < len.toNat := by omega
  have moves (amount : Nat)
      (amount_eq : (readLength (bentMemory length high low (i.toNat + 10))
        (bentMemory length high low (i.toNat + 11))).toNat = amount)
      (no_four : amount ≠ 4)
      (lost : Lost length ((i.toNat + 12 + amount) % 2 ^ 32)) :
      ∃ next, nextRecord (bentMemory length high low) len i = .inl next ∧
        Lost length next.toNat := by
    obtain ⟨next, step, next_eq⟩ := nextRecord_continues amount_eq inside no_four
    exact ⟨next, step, by rw [next_eq]; exact lost⟩
  rcases bentMemory_lengths high low large i_le with
    second | ⟨first, second⟩ | ⟨at_i, first, second⟩ | ⟨at_i, first, second⟩ |
    ⟨at_i, first, second⟩ | ⟨at_i, second⟩ | ⟨at_i, first, second⟩ | ⟨at_i, first, second⟩
  · exact moves _ (toNat_readLength_negative _ second (by decide)) (by decide)
      (lost_of_step_over length_le (by decide) (by change _ + (4294967040 + 128) < _; omega))
  · rcases second with second | second
    · exact moves 4294934529 (by rw [first, second]; decide) (by decide)
        (lost_of_step_over length_le (by decide) (by omega))
    · exact moves 4294934528 (by rw [first, second]; decide) (by decide)
        (lost_of_step_over length_le (by decide) (by omega))
  · refine moves 0 (by rw [first, second]; decide) (by decide) (Or.inl ?_)
    rw [at_i]
    exact ⟨by decide, fun six => absurd six (by decide)⟩
  · refine moves 1 (by rw [first, second]; decide) (by decide) (Or.inl ?_)
    omega
  · refine moves 256 (by rw [first, second]; decide) (by decide) ?_
    rw [at_i]
    rcases sixth at_i with small | wide
    · exact Or.inr (Or.inr (Or.inl ⟨small, rfl⟩))
    · exact Or.inr (Or.inl ⟨wide, Or.inl rfl⟩)
  · refine moves _ (toNat_readLength_negative _ second (by decide)) (by decide)
      (lost_of_step_over length_le (by decide) (by rw [at_i]; decide))
  · by_cases negative : 128 ≤ high.toNat
    · have high_lt := high.toNat_lt
      exact moves _ (toNat_readLength_negative _ second negative) (by omega)
        (lost_of_step_back length_le (by omega) (by omega))
    · have first_negative : 128 ≤ (0x80 : UInt8).toNat := by decide
      have first_lt := (0x80 : UInt8).toNat_lt
      exact moves _ (toNat_readLength_negative_first first second first_negative
        (not_le.mp negative)) (by omega) (lost_of_step_over length_le (by omega) (by omega))
  · by_cases negative : 128 ≤ low.toNat
    · exact moves _ (toNat_readLength_negative _ second negative) (by omega)
        (lost_of_step_back length_le (by omega) (by omega))
    · have high_negative : 128 ≤ high.toNat := by
        by_contra plain
        exact bent ⟨by omega, by omega⟩
      have high_lt := high.toNat_lt
      exact moves _ (toNat_readLength_negative_first first second high_negative
        (not_le.mp negative)) (by omega) (lost_of_step_over length_le (by omega) (by omega))

/-- Further behind, the walk turns back to the next such spot, or ends without an address. -/
theorem lost_behind {len i : UInt32} (length_le : length ≤ 65535)
    (len_eq : len.toNat = 47 + length) (behind : 30 < i.toNat) (lost : Lost length i.toNat) :
    (∃ next, nextRecord (bentMemory length high low) len i = .inl next ∧
        Lost length next.toNat) ∨
      nextRecord (bentMemory length high low) len i = .inr .truncated ∨
      nextRecord (bentMemory length high low) len i = .inr .exhausted := by
  rcases lost with ⟨before, -⟩ | ⟨wide, spot⟩ | ⟨rfl, at_i⟩ | outside
  · omega
  · -- Both bytes lie in the data, and each spot is as far from the next as the step goes back.
    left
    have second : bentMemory length high low (i.toNat + 11) = 0x80 :=
      bentMemory_data (by omega) (by omega)
    have inside : i.toNat + 12 < len.toNat := by omega
    obtain ⟨next, step, next_eq⟩ := nextRecord_continues
      (toNat_readLength_negative (bentMemory length high low (i.toNat + 10)) second (by decide))
      inside (by decide)
    have next_at : next.toNat = (i.toNat + 12 + (4294967040 + 128)) % 2 ^ 32 := next_eq
    refine ⟨next, step, ?_⟩
    rw [Lost]
    omega
  · right; left
    have stored : MemoryBlock.Stored (bentMemory 231 high low) (i.toNat + 10)
        [bentMemory 231 high low (i.toNat + 10), bentMemory 231 high low (i.toNat + 11)] :=
      ⟨rfl, rfl, trivial⟩
    obtain ⟨data, data_eq, step⟩ := nextRecord_eq len stored (by omega) (by omega)
    rw [step, if_pos (by omega)]
  · right; right
    rw [nextRecord, if_neg]
    rw [UInt32.lt_iff_toNat_lt]
    omega

/-- No walk that is lost finds an address. -/
theorem no_address_of_lost {len first : UInt32} {stop : RecordsEnd} (bent : ¬PlainLength length)
    (length_le : length ≤ 65535) (high_eq : high.toNat = length / 256)
    (low_eq : low.toNat = length % 256) (len_eq : len.toNat = 47 + length)
    (lost : Lost length first.toNat)
    (returns : WhileLoop.Returns (nextRecord (bentMemory length high low) len) first stop) :
    stop = .truncated ∨ stop = .exhausted := by
  have step (i : UInt32) (lost : Lost length i.toNat) :
      (∃ next, nextRecord (bentMemory length high low) len i = .inl next ∧
          Lost length next.toNat) ∨
        nextRecord (bentMemory length high low) len i = .inr .truncated ∨
        nextRecord (bentMemory length high low) len i = .inr .exhausted := by
    by_cases behind : 30 < i.toNat
    · exact lost_behind length_le len_eq behind lost
    · left
      apply lost_front bent length_le high_eq low_eq len_eq (not_lt.mp behind)
      intro sixth
      rcases lost with ⟨-, wide⟩ | spot
      · exact wide sixth
      · omega
  apply WhileLoop.Returns.of_invariant (fun i : UInt32 => Lost length i.toNat) _ _ returns lost
  · intro i next inv continues
    rcases step i inv with ⟨other, step_eq, other_lost⟩ | ended | ended
    · rw [step_eq] at continues
      obtain rfl := Sum.inl.inj continues
      exact other_lost
    · rw [ended] at continues
      contradiction
    · rw [ended] at continues
      contradiction
  · intro i result inv ends
    rcases step i inv with ⟨other, step_eq, -⟩ | ended | ended
    · rw [step_eq] at ends
      contradiction
    · rw [ended] at ends
      exact Or.inl (Sum.inr.inj ends).symm
    · rw [ended] at ends
      exact Or.inr (Sum.inr.inj ends).symm

end Steps

/-- The answer in which a record of this length stands in front of the address. -/
def bentResponse (length : Nat) (length_le : length ≤ 65535) (bent : ¬PlainLength length) :
    Response where
  header := List.replicate 12 0x80
  question := bentName
  records := [bentRecord length length_le bent, plainAddress]
  header_length := rfl
  nonempty := List.cons_ne_nil _ _
  fits := by
    obtain ⟨high, low, bytes_eq, -, -⟩ := twoBytes_ofNat length_le
    rw [packetOf_bent length_le bent bytes_eq, length_bentPacket]
    omega

theorem beforeAnswer_bentResponse {length : Nat} (length_le : length ≤ 65535)
    (bent : ¬PlainLength length) :
    (bentResponse length length_le bent).beforeAnswer =
      [bentRecord length length_le bent] := by
  have skipped : (bentRecord length length_le bent).isAddress = false := rfl
  have found : plainAddress.isAddress = true := rfl
  simp [Response.beforeAnswer, bentResponse, skipped, found]

/-- The parser misses the address behind a record of such a length. -/
theorem not_parsedRight_bentResponse {length : Nat} (length_le : length ≤ 65535)
    (bent : ¬PlainLength length) : ¬(bentResponse length length_le bent).ParsedRight := by
  intro right
  obtain ⟨high, low, bytes_eq, high_eq, low_eq⟩ := twoBytes_ofNat length_le
  have packet_eq : (bentResponse length length_le bent).packet = bentPacket length high low :=
    packetOf_bent length_le bent bytes_eq
  have packet_length : (bentResponse length length_le bent).packet.length = 47 + length := by
    rw [packet_eq, length_bentPacket]
  have stored : MemoryBlock.Stored (bentMemory length high low) 0
      (bentResponse length length_le bent).packet := by
    rw [packet_eq]
    exact MemoryBlock.stored_getD _ 0x80
  obtain ⟨first, first_eq, -, parse⟩ := responseParse_iff_walk stored
  obtain ⟨stop, returns, finished⟩ := (parse [] _).mp (right _ [] stored)
  have records_length :
      ((bentResponse length length_le bent).records.flatMap ResourceRecord.encode).length =
        28 + length := by
    simp [bentResponse, bentRecord, plainAddress, ResourceRecord.encode,
      ResourceRecord.fixedPart, twoBytes, fourBytes]
    omega
  have started : Lost length first.toNat := Or.inl ⟨by omega, by omega⟩
  have len_eq : (UInt32.ofNat (bentResponse length length_le bent).packet.length).toNat =
      47 + length := by
    rw [packet_length]
    exact UInt32.toNat_ofNat_of_lt' (by change _ < 2 ^ 32; omega)
  have expected_eq : (bentResponse length length_le bent).expected [] =
      (0, dotted [1, 2, 3, 4]) := rfl
  have ended := no_address_of_lost bent length_le high_eq low_eq len_eq started returns
  rw [expected_eq, finish_of_no_address ended] at finished
  have codes : (-1 : Int) = 0 := congrArg Prod.fst (Option.some.inj finished)
  exact absurd codes (by decide)

/-! ## The answers that are parsed right -/

/-- Which lengths may stand in front of an address: the parser finds the address of every answer
whose other records have such lengths, and reports that there is none where there is none, if and
only if both bytes of each of these lengths are below 128. -/
theorem parsedRight_iff_plain (lengths : Nat → Prop) :
    (∀ response : Response,
      (∀ record ∈ response.beforeAnswer, lengths record.rdata.length) → response.ParsedRight) ↔
    ∀ length ≤ 65535, lengths length → PlainLength length := by
  constructor
  · intro right length length_le allowed
    by_contra bent
    apply not_parsedRight_bentResponse length_le bent
    apply right
    intro record mem
    rw [beforeAnswer_bentResponse, List.mem_singleton] at mem
    rw [mem]
    simpa [bentRecord] using allowed
  · intro plain response allowed
    apply parsedRight_of_plain
    intro record mem
    exact plain _ record.length_le (allowed record mem)

/-- An answer to a query for `a`: its alias is a name of 128 bytes, then comes the address. -/
def aliasResponse : Response where
  header := twoBytes dnsIdField ++ twoBytes 0x8180 ++ twoBytes dnsQuestionCountField ++
    twoBytes 2 ++ twoBytes dnsAuthorityCountField ++ twoBytes dnsAdditionalCountField
  question := nameOfByte 97 (by decide)
  records :=
    [{ owner := 0xC00C
       type := 5
       class_ := 1
       ttl := 0
       rdata := writeSection (List.replicate 63 97) ++ writeSection (List.replicate 62 97) ++ [0]
       compressed := by decide
       length_le := by decide +kernel
       address_of_length := by decide +kernel },
     plainAddress]
  header_length := rfl
  nonempty := List.cons_ne_nil _ _
  fits := by decide +kernel

/-- The alias sends the walk in front of the packet, so the address is not found. -/
theorem aliasResponse_missed :
    aliasResponse.expected [] = (0, dotted [1, 2, 3, 4]) ∧
      responseParse 2 (fun position => (aliasResponse.packet[position]?).getD 0)
        (UInt32.ofNat aliasResponse.packet.length) [] = some (-1, []) ∧
      ¬aliasResponse.ParsedRight := by
  have expected_eq : aliasResponse.expected [] = (0, dotted [1, 2, 3, 4]) := rfl
  have missed : responseParse 2 (fun position => (aliasResponse.packet[position]?).getD 0)
      (UInt32.ofNat aliasResponse.packet.length) [] = some (-1, []) := by
    decide +kernel
  refine ⟨expected_eq, missed, fun right => ?_⟩
  obtain ⟨fuel, found⟩ := right _ [] (MemoryBlock.stored_getD _ 0)
  rw [expected_eq] at found
  have codes : (-1 : Int) = 0 := congrArg Prod.fst (responseParse_unique missed found)
  exact absurd codes (by decide)

end DnsProtocol
end NetworkBase
