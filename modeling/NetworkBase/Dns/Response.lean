import NetworkBase.Dns.DottedDecimal

/-!
# Well-formed answers

A `Response` is an answer as a name server writes it: a header, the question as `RequestConstruct`
emits it, and records with compressed owner names.  Every type carries what makes its values well
formed, so each of them has a packet.
-/

namespace NetworkBase
namespace DnsProtocol

/-- A label of a domain name. -/
structure Label where
  bytes : List UInt8
  nonempty : bytes ≠ []
  length_le : bytes.length ≤ 63
  plain : ∀ byte ∈ bytes, byte ≠ dot ∧ byte ≠ 0

/-- A domain name. -/
structure DomainName where
  labels : List Label
  nonempty : labels ≠ []

/-- The text of a domain name. -/
def DomainName.text (name : DomainName) : List UInt8 :=
  List.intercalate [dot] (name.labels.map Label.bytes)

/-- A resource record with a compressed owner name; no other record is as short as an address. -/
structure ResourceRecord where
  owner : UInt16
  type : UInt16
  class_ : UInt16
  ttl : UInt32
  rdata : List UInt8
  compressed : 0xC000 ≤ owner
  length_le : rdata.length ≤ 65535
  address_of_length : rdata.length = 4 → type = 1

namespace ResourceRecord

/-- The record is an address. -/
def isAddress (record : ResourceRecord) : Bool := record.type = 1 && record.rdata.length = 4

/-- The part in front of the length. -/
def fixedPart (record : ResourceRecord) : List UInt8 :=
  twoBytes record.owner ++ twoBytes record.type ++ twoBytes record.class_ ++ fourBytes record.ttl

/-- The bytes of a record. -/
def encode (record : ResourceRecord) : List UInt8 :=
  record.fixedPart ++ twoBytes (UInt16.ofNat record.rdata.length) ++ record.rdata

end ResourceRecord

/-- The bytes of an answer. -/
def packetOf (header : List UInt8) (question : DomainName) (records : List ResourceRecord) :
    List UInt8 :=
  header ++ (requestConstruct question.text).drop 12 ++ records.flatMap ResourceRecord.encode

/-- An answer that fits into a length of 32 bits. -/
structure Response where
  header : List UInt8
  question : DomainName
  records : List ResourceRecord
  header_length : header.length = 12
  nonempty : records ≠ []
  fits : (packetOf header question records).length < 2 ^ 32

namespace Response

/-- The bytes of an answer. -/
def packet (response : Response) : List UInt8 :=
  packetOf response.header response.question response.records

/-- The first address. -/
def answer (response : Response) : Option ResourceRecord :=
  response.records.find? ResourceRecord.isAddress

/-- The records in front of the first address. -/
def beforeAnswer (response : Response) : List ResourceRecord :=
  response.records.takeWhile fun record => !record.isAddress

/-- What the parser should return, and leave in `ip`. -/
def expected (response : Response) (ip : List UInt8) : Int × List UInt8 :=
  match response.answer with
  | some record => (0, dotted record.rdata)
  | none => (-1, ip)

/-- The parser finds the first address, or that there is none, whatever lies behind the packet. -/
def ParsedRight (response : Response) : Prop :=
  ∀ buffer ip, MemoryBlock.Stored buffer 0 response.packet →
    ∃ fuel, responseParse fuel buffer (UInt32.ofNat response.packet.length) ip =
      some (response.expected ip)

end Response

/-! ## The question -/

/-- The labels of a name, each behind its length. -/
def encodeLabels (labels : List Label) : List UInt8 :=
  labels.flatMap fun label => writeSection label.bytes

/-- Bytes of a label join the section. -/
theorem writeName_append {bytes : List UInt8} (plain : ∀ byte ∈ bytes, byte ≠ dot)
    (front rest : List UInt8) :
    writeName front (bytes ++ rest) = writeName (front ++ bytes) rest := by
  induction bytes generalizing front with
  | nil => rw [List.nil_append, List.append_nil]
  | cons byte bytes ih =>
      obtain ⟨head, tail⟩ := List.forall_mem_cons.mp plain
      rw [List.cons_append, writeName, if_neg head, ih tail, List.append_assoc]
      rfl

/-- A name is written label by label. -/
theorem writeName_text {labels : List Label} (nonempty : labels ≠ []) :
    writeName [] (List.intercalate [dot] (labels.map Label.bytes)) = encodeLabels labels := by
  induction labels with
  | nil => exact absurd rfl nonempty
  | cons label labels ih =>
      have plain : ∀ byte ∈ label.bytes, byte ≠ dot := fun byte mem => (label.plain byte mem).1
      cases labels with
      | nil =>
          have alone := writeName_append plain [] []
          rw [List.append_nil, List.nil_append] at alone
          simp [alone, writeName, encodeLabels]
      | cons next labels =>
          have rest := ih (List.cons_ne_nil next labels)
          rw [List.map_cons, List.map_cons, List.intercalate_cons_cons, List.append_assoc,
            writeName_append plain, List.nil_append]
          rw [List.map_cons] at rest
          simp only [List.cons_append, List.nil_append, writeName, if_true, rest]
          simp [encodeLabels]

/-- The question section that `RequestConstruct` emits. -/
theorem question_eq (name : DomainName) :
    (requestConstruct name.text).drop 12 = encodeLabels name.labels ++ [0, 0, 1, 0, 1] := by
  have whole : requestConstruct name.text =
      [0x66, 0x66, 1, 0, 0, 1, 0, 0, 0, 0, 0, 0] ++
        (encodeLabels name.labels ++ [0, 0, 1, 0, 1]) := by
    rw [requestConstruct, DomainName.text, writeName_text name.nonempty]
    simp only [List.append_assoc]
    rfl
  rw [whole]
  exact List.drop_left' rfl

end DnsProtocol
end NetworkBase
