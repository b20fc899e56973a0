import NetworkBase.Dns.DottedDecimal
import NetworkBase.Transport.AddressLiteral

/-!
# Reading an address back

`intToStr` writes an address and `IpValid` reads one; the two were written apart from each other.
The text of four bytes is read back as these bytes.
-/

namespace NetworkBase
namespace DnsProtocol

open SocketAssistant (Digits Quad Ipv4Literal scanParts ipValid)

/-! ## One number -/

/-- The decimal form consists of digits. -/
theorem isDigit_of_mem_decimal {byte char : UInt8} (mem : char ∈ decimal byte) :
    SocketAssistant.isDigit char = true := by
  rw [decimal, List.mem_map] at mem
  obtain ⟨digit, digit_mem, rfl⟩ := mem
  have digits := Nat.isDigit_of_mem_toDigits (by decide) (by decide) digit_mem
  rw [Char.isDigit_iff_toNat] at digits
  have low : '0'.toNat = 48 := rfl
  have high : '9'.toNat = 57 := rfl
  have value : digit.toUInt8.toNat = digit.toNat % 256 := rfl
  rw [SocketAssistant.isDigit, decide_eq_true_eq, UInt8.le_iff_toNat_le, UInt8.le_iff_toNat_le,
    value]
  change 48 ≤ _ ∧ _ ≤ 57
  omega

/-- The decimal form spells the byte. -/
theorem decimal_decimal (byte : UInt8) : SocketAssistant.decimal (decimal byte) = byte.toNat := by
  have spelled : ∀ digits : List Char, (∀ digit ∈ digits, digit.isDigit = true) → ∀ value,
      (digits.map fun digit => (digit.toUInt8 - 48).toNat).foldl
          (fun value digit => 10 * value + digit) value = Nat.ofDigitChars 10 digits value := by
    intro digits all
    induction digits with
    | nil => exact fun value => rfl
    | cons digit digits ih =>
        intro value
        obtain ⟨head, tail⟩ := List.forall_mem_cons.mp all
        rw [Char.isDigit_iff_toNat] at head
        have low : '0'.toNat = 48 := rfl
        have high : '9'.toNat = 57 := rfl
        have digit_eq : (digit.toUInt8 - 48).toNat = digit.toNat - '0'.toNat := by
          have narrow : digit.toUInt8.toNat = digit.toNat % 256 := rfl
          have behind : (48 : UInt8) ≤ digit.toUInt8 := by
            rw [UInt8.le_iff_toNat_le, narrow]
            change 48 ≤ _
            omega
          rw [UInt8.toNat_sub_of_le _ _ behind, narrow, low]
          change _ - 48 = _
          omega
        rw [List.map_cons, List.foldl_cons, ih tail, Nat.ofDigitChars_cons, digit_eq]
  have digits : ∀ digit ∈ Nat.toDigits 10 byte.toNat, digit.isDigit = true := fun digit mem =>
    Nat.isDigit_of_mem_toDigits (by decide) (by decide) mem
  rw [SocketAssistant.decimal, decimal, SocketAssistant.numeral, List.map_map]
  exact (spelled _ digits 0).trans Nat.ofDigitChars_ten_toDigits

theorem decimal_ne_nil (byte : UInt8) : decimal byte ≠ [] :=
  List.ne_nil_of_length_pos (length_decimal byte).1

/-- Only the zero begins with a zero. -/
theorem canonical_decimal {byte : UInt8} (zero_first : (decimal byte).head? = some 48) :
    byte = 0 := by
  by_contra positive
  have value_pos : 0 < byte.toNat := by
    rw [Nat.pos_iff_ne_zero]
    exact fun zero => positive (UInt8.toNat_inj.mp zero)
  have leading (value : Nat) (value_pos : 0 < value) :
      ∃ digit, 0 < digit ∧ digit < 10 ∧ (Nat.toDigits 10 value).head? = some digit.digitChar := by
    induction value using Nat.strong_induction_on with
    | _ value ih =>
        by_cases small : value < 10
        · exact ⟨value, value_pos, small, by rw [Nat.toDigits_of_lt_base small]; rfl⟩
        · obtain ⟨digit, digit_pos, digit_lt, head_eq⟩ := ih (value / 10) (by omega) (by omega)
          refine ⟨digit, digit_pos, digit_lt, ?_⟩
          rw [Nat.toDigits_of_base_le (by decide) (by omega), List.head?_append, head_eq]
          rfl
  obtain ⟨digit, digit_pos, digit_lt, head_eq⟩ := leading byte.toNat value_pos
  rw [decimal, List.head?_map, head_eq, Option.map_some, Option.some.injEq,
    toUInt8_digitChar digit_lt] at zero_first
  interval_cases digit <;> exact absurd zero_first (by decide)

/-- The decimal form of a byte as a group of digits. -/
def groupOf (byte : UInt8) : Digits where
  chars := decimal byte
  nonempty := decimal_ne_nil byte
  digit _ := isDigit_of_mem_decimal

theorem value_groupOf (byte : UInt8) : (groupOf byte).value = byte.toNat :=
  decimal_decimal byte

/-! ## Four numbers -/

/-- The text of four bytes is a literal. -/
def literalOf (a b c d : UInt8) : Ipv4Literal where
  a := groupOf a
  b := groupOf b
  c := groupOf c
  d := groupOf d
  small := by
    have small (byte : UInt8) : (groupOf byte).value ≤ 255 := by
      have byte_lt := byte.toNat_lt
      rw [value_groupOf]
      omega
    simp [Quad.groups, small]

theorem text_literalOf (a b c d : UInt8) : (literalOf a b c d).text = dotted [a, b, c, d] := by
  simp [literalOf, groupOf, Quad.text, dotted, dot, List.intercalate_cons_cons]

/-- `"%d.%d.%d.%d"` reads four bytes back. -/
theorem scanParts_dotted (overflow : Int → Int) (a b c d : UInt8) :
    scanParts overflow (dotted [a, b, c, d]) =
      some ((a.toNat : Int), (b.toNat : Int), (c.toNat : Int), (d.toNat : Int)) := by
  have stored (byte : UInt8) : (groupOf byte).stored overflow = byte.toNat := by
    have byte_lt := byte.toNat_lt
    have value_eq := value_groupOf byte
    rw [Digits.stored_of_lt (by omega), value_eq]
  have scanned := SocketAssistant.scanParts_text overflow (literalOf a b c d).toQuad Span.stops_nil
  rw [List.append_nil, text_literalOf] at scanned
  rw [scanned, ← stored a, ← stored b, ← stored c, ← stored d]
  rfl

/-- An address is determined by its text. -/
theorem dotted_injective {a b c d a' b' c' d' : UInt8}
    (same : dotted [a, b, c, d] = dotted [a', b', c', d']) :
    [a, b, c, d] = [a', b', c', d'] := by
  have parts := scanParts_dotted id a b c d
  rw [same, scanParts_dotted] at parts
  simp only [Option.some.injEq, Prod.mk.injEq, Nat.cast_inj, UInt8.toNat_inj] at parts
  obtain ⟨rfl, rfl, rfl, rfl⟩ := parts
  rfl

/-- `IpValid` accepts the text of four bytes. -/
theorem ipValid_dotted (a b c d : UInt8) : ipValid (dotted [a, b, c, d]) = true := by
  rw [← text_literalOf]
  exact (literalOf a b c d).valid _

end DnsProtocol
end NetworkBase
