import Mathlib.Tactic
import NetworkBase.Library.MemoryBlock
import NetworkBase.Library.WhileLoop

/-!
# The DNS protocol

`RequestConstruct` writes a query, `ResponseParse` looks for an address in an answer.  The parser
gets a pointer and a length; nothing keeps it from reading behind the length, so the pointer is the
whole memory behind it.  Plain `char` is signed, and indices are unsigned numbers of 32 bits.
-/

namespace NetworkBase
namespace DnsProtocol

/-! ## `RequestConstruct` -/

/-- `DNS_ID_FIELD`. -/
def dnsIdField : UInt16 := 0x6666

/-- `DNS_CTRL_FIELD`. -/
def dnsCtrlField : UInt16 := 0x0100

/-- `DNS_QUESTION_COUNT_FILED`. -/
def dnsQuestionCountField : UInt16 := 0x0001

/-- `DNS_ANSWER_COUNT_FIELD`. -/
def dnsAnswerCountField : UInt16 := 0x0000

/-- `DNS_AUTHORITY_COUNT_FIELD`. -/
def dnsAuthorityCountField : UInt16 := 0x0000

/-- `DNS_ADDITIONAL_COUNT_FIELD`. -/
def dnsAdditionalCountField : UInt16 := 0x0000

/-- `DNS_QTYPE_FIELD`. -/
def dnsQtypeField : UInt16 := 0x0001

/-- `DNS_QCLASS_FIELD`. -/
def dnsQclassField : UInt16 := 0x0001

/-- A field in network order. -/
def twoBytes (field : UInt16) : List UInt8 := [(field >>> 8).toUInt8, field.toUInt8]

/-- A wide field in network order. -/
def fourBytes (field : UInt32) : List UInt8 :=
  [(field >>> 24).toUInt8, (field >>> 16).toUInt8, (field >>> 8).toUInt8, field.toUInt8]

/-- The character that separates labels. -/
def dot : UInt8 := 46

/-- The part of a name from `section_start` on: its length and its bytes. -/
def writeSection (sectionBytes : List UInt8) : List UInt8 :=
  UInt8.ofNat sectionBytes.length :: sectionBytes

/-- The loop over the rest of the domain; `sectionBytes` are the bytes since `section_start`. -/
def writeName (sectionBytes : List UInt8) : List UInt8 → List UInt8
  | [] => writeSection sectionBytes
  | char :: domain =>
      if char = dot then writeSection sectionBytes ++ writeName [] domain
      else writeName (sectionBytes ++ [char]) domain

/-- `RequestConstruct`: the bytes written; `*index` is their number. -/
def requestConstruct (domain : List UInt8) : List UInt8 :=
  twoBytes dnsIdField ++ twoBytes dnsCtrlField ++ twoBytes dnsQuestionCountField ++
    twoBytes dnsAnswerCountField ++ twoBytes dnsAuthorityCountField ++
    twoBytes dnsAdditionalCountField ++
    writeName [] domain ++ [0] ++ twoBytes dnsQtypeField ++ twoBytes dnsQclassField

/-! ## `intToStr` -/

/-- Size of the array `dns` in `ResponseParse`. -/
def dnsLen : Nat := 32

/-- Size of the array `temp` in `intToStr`. -/
def tempLen : Nat := 10

/-- `strlen` of a block, undefined without a terminating zero. -/
def strlen (block : List UInt8) : Option Nat :=
  if 0 ∈ block then some (block.takeWhile (· ≠ 0)).length else none

/-- The first inner loop: the digits of `pos`, the last one first, while `room` cells are left. -/
def fillTemp : Nat → UInt8 → Option (List UInt8)
  | 0, _ => none
  | room + 1, pos =>
      let digit := pos % 10 + 48
      if pos / 10 > 0 then (fillTemp room (pos / 10)).map (digit :: ·) else some [digit]

/-- The second inner loop: the digits in `temp`, stored from the back. -/
def storeDigits : List UInt8 → List UInt8 → Option (List UInt8)
  | [], output => some output
  | digit :: temp, output => do
      let length ← strlen output
      let output ← MemoryBlock.write output (temp.length + length) [digit]
      storeDigits temp output

/-- The outer loop over the input bytes. -/
def storeBytes : List UInt8 → List UInt8 → Option (List UInt8)
  | [], output => some output
  | pos :: input, output => do
      let temp ← fillTemp tempLen pos
      let output ← storeDigits temp output
      let length ← strlen output
      let output ← MemoryBlock.write output length [dot]
      storeBytes input output

/-- `intToStr`, on the four bytes behind `input`. -/
def intToStr (input output : List UInt8) : Option (List UInt8) := do
  let output ← storeBytes input output
  let length ← strlen output
  MemoryBlock.write output (length - 1) [0]

/-! ## `ResponseParse` -/

/-- A `char` as an operand of type `uint32_t`. -/
def charOperand (char : UInt8) : UInt32 := char.toInt8.toInt32.toUInt32

/-- One iteration of the loop that skips the name of the question. -/
def skipName (buffer : Nat → UInt8) (i : UInt32) : UInt32 ⊕ UInt32 :=
  if buffer i.toNat ≠ 0 then .inl (i + (charOperand (buffer i.toNat) + 1)) else .inr i

/-- How the loop over the records ends. -/
inductive RecordsEnd
  /-- The packet ends within a record. -/
  | truncated
  /-- The packet ends behind a record. -/
  | exhausted
  /-- There is an address at this index. -/
  | address (i : UInt32)
  deriving DecidableEq, Repr

/-- One iteration of the loop over the records. -/
def nextRecord (buffer : Nat → UInt8) (len : UInt32) (i : UInt32) : UInt32 ⊕ RecordsEnd :=
  if i < len then
    let i := i + (2 + 2 + 2 + 4)
    let rdLen := charOperand (buffer i.toNat) <<< 8
    let i := i + 1
    let rdLen := rdLen ||| charOperand (buffer i.toNat)
    let i := i + 1
    if i ≥ len then .inr .truncated
    else if rdLen = 4 then .inr (.address i)
    else .inl (i + rdLen)
  else
    .inr .exhausted

/-- What `ResponseParse` returns and leaves in `ip` after the loop over the records. -/
def finish (buffer : Nat → UInt8) (ip : List UInt8) : RecordsEnd → Option (Int × List UInt8)
  | .truncated => some (-1, ip)
  | .exhausted => some (-1, ip)
  | .address i => do
      let input := [buffer i.toNat, buffer (i.toNat + 1), buffer (i.toNat + 2),
        buffer (i.toNat + 3)]
      let dns ← intToStr input (List.replicate dnsLen 0)
      some (0, dns.takeWhile (· ≠ 0))

/-- `ResponseParse`, with `fuel` for each of its loops: its value and `ip` afterwards. -/
def responseParse (fuel : Nat) (buffer : Nat → UInt8) (len : UInt32) (ip : List UInt8) :
    Option (Int × List UInt8) := do
  let i ← WhileLoop.run (skipName buffer) fuel 12
  if i ≥ len then
    some (-1, ip)
  else do
    let stop ← WhileLoop.run (nextRecord buffer len) fuel (i + (1 + 4))
    finish buffer ip stop

end DnsProtocol
end NetworkBase
