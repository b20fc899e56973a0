import NetworkBase.Dns.DnsProtocol
import NetworkBase.Library.Span

/-!
# The decimal form of an address

`intToStr` builds its output in place: it looks for the end of the text written so far, stores the
digits of the next byte from the back and appends a dot.  On a zeroed block with enough room the
text is the decimal form of every byte in turn.
-/

namespace NetworkBase
namespace DnsProtocol

/-- The decimal form of a byte. -/
def decimal (byte : UInt8) : List UInt8 := (Nat.toDigits 10 byte.toNat).map Char.toUInt8

/-- The dotted decimal form of some bytes. -/
def dotted (bytes : List UInt8) : List UInt8 := List.intercalate [dot] (bytes.map decimal)

/-- The bytes in decimal form, each with a dot behind it. -/
def withDots (bytes : List UInt8) : List UInt8 := bytes.flatMap fun byte => decimal byte ++ [dot]

/-! ## Digits -/

/-- The digit characters, as bytes. -/
theorem toUInt8_digitChar {digit : Nat} (small : digit < 10) :
    (Nat.digitChar digit).toUInt8 = UInt8.ofNat digit + 48 := by
  interval_cases digit <;> rfl

/-- `temp` receives the decimal digits in reverse order. -/
theorem fillTemp_eq {room : Nat} {pos : UInt8} (roomy : 0 < room) (fits : pos.toNat < 10 ^ room) :
    fillTemp room pos = some (decimal pos).reverse := by
  induction room generalizing pos with
  | zero => exact absurd roomy (Nat.lt_irrefl 0)
  | succ room ih =>
      have tenth_eq : (pos / 10).toNat = pos.toNat / 10 := UInt8.toNat_div pos 10
      have rest_eq : pos % 10 = UInt8.ofNat (pos.toNat % 10) := by
        apply UInt8.toNat_inj.mp
        rw [UInt8.toNat_mod]
        have := pos.toNat_lt
        simp
        omega
      have last : (Nat.digitChar (pos.toNat % 10)).toUInt8 = pos % 10 + 48 := by
        rw [toUInt8_digitChar (Nat.mod_lt _ (by decide)), rest_eq]
      have more_iff : pos / 10 > 0 ↔ 10 ≤ pos.toNat := by
        rw [gt_iff_lt, UInt8.lt_iff_toNat_lt, tenth_eq]
        simp
      rw [fillTemp]
      by_cases more : 10 ≤ pos.toNat
      · have shorter : (pos / 10).toNat < 10 ^ room := by
          rw [tenth_eq]
          rw [Nat.pow_succ] at fits
          omega
        have room_pos : 0 < room := by
          by_contra none_left
          obtain rfl : room = 0 := by omega
          omega
        rw [if_pos (more_iff.mpr more), ih room_pos shorter, decimal, decimal,
          Nat.toDigits_of_base_le (by decide) more, tenth_eq]
        simp [last]
      · have small : pos.toNat % 10 = pos.toNat := Nat.mod_eq_of_lt (by omega)
        rw [small] at last
        rw [if_neg (fun positive => more (more_iff.mp positive)), decimal,
          Nat.toDigits_of_lt_base (by omega)]
        simp [last]

/-- A byte has one to three digits. -/
theorem length_decimal (byte : UInt8) :
    0 < (decimal byte).length ∧ (decimal byte).length ≤ 3 := by
  rw [decimal, List.length_map]
  refine ⟨Nat.length_toDigits_pos, (Nat.length_toDigits_le_iff (by decide) (by decide)).mpr ?_⟩
  have := byte.toNat_lt
  omega

/-- No digit ends a string. -/
theorem zero_notMem_decimal (byte : UInt8) : 0 ∉ decimal byte := by
  rw [decimal, List.mem_map]
  rintro ⟨char, mem, zero⟩
  have digit := Nat.isDigit_of_mem_toDigits (by decide) (by decide) mem
  rw [Char.isDigit_iff_toNat] at digit
  have low : '0'.toNat = 48 := rfl
  have high : '9'.toNat = 57 := rfl
  have value : char.toNat % 256 = 0 := congrArg UInt8.toNat zero
  omega

theorem length_withDots_cons (byte : UInt8) (bytes : List UInt8) :
    (withDots (byte :: bytes)).length =
      (decimal byte).length + 1 + (withDots bytes).length := by
  rw [withDots, List.flatMap_cons, List.length_append, List.length_append]
  rfl

/-! ## Text at the front of a block -/

/-- A text without zeros is what stands in front of the zero behind it. -/
theorem takeWhile_text {text : List UInt8} (plain : 0 ∉ text) (rest : List UInt8) :
    (text ++ 0 :: rest).takeWhile (· ≠ 0) = text := by
  have all : ∀ byte ∈ text, decide (byte ≠ 0) = true := by
    intro byte mem
    rw [decide_eq_true_eq]
    rintro rfl
    exact plain mem
  exact Span.takeWhile_append all (Span.stops_cons (by decide) rest)

/-- A text without zeros that a zero follows ends where it ends. -/
theorem strlen_append {text : List UInt8} (plain : 0 ∉ text) (rest : List UInt8) :
    strlen (text ++ 0 :: rest) = some text.length := by
  have mem : (0 : UInt8) ∈ text ++ 0 :: rest := by simp
  rw [strlen, if_pos mem, takeWhile_text plain]

/-- Behind the text, with the last digits in place already, the first ones are stored in order. -/
theorem storeDigits_spec {text : List UInt8} (plain : 0 ∉ text) (temp stored rest : List UInt8) :
    storeDigits temp (text ++ List.replicate temp.length 0 ++ stored ++ rest) =
      some (text ++ temp.reverse ++ stored ++ rest) := by
  induction temp generalizing stored with
  | nil => rfl
  | cons digit temp ih =>
      have length_eq : strlen
          (text ++ List.replicate (digit :: temp).length 0 ++ stored ++ rest) =
            some text.length := by
        have shape : text ++ List.replicate (digit :: temp).length 0 ++ stored ++ rest =
            text ++ 0 :: (List.replicate temp.length 0 ++ stored ++ rest) := by
          simp [List.replicate_succ]
        rw [shape]
        exact strlen_append plain _
      have shape : text ++ List.replicate (digit :: temp).length 0 ++ stored ++ rest =
          text ++ List.replicate temp.length 0 ++ [0] ++ (stored ++ rest) := by
        simp [List.replicate_succ']
      have position : temp.length + text.length =
          (text ++ List.replicate temp.length (0 : UInt8)).length := by
        simp [Nat.add_comm]
      rw [storeDigits, length_eq]
      simp only [Option.bind_eq_bind, Option.bind_some]
      rw [shape, position, MemoryBlock.write_append _ [0] [digit] _ rfl]
      simp only [Option.bind_some]
      have rest_eq := ih (digit :: stored)
      simp only [List.append_assoc, List.cons_append, List.nil_append, List.reverse_cons]
        at rest_eq ⊢
      exact rest_eq

/-- Each byte adds its decimal form and a dot to the text. -/
theorem storeBytes_spec {text : List UInt8} (plain : 0 ∉ text) (input : List UInt8) (free : Nat) :
    storeBytes input
        (text ++ List.replicate ((withDots input).length + 1 + free) 0) =
      some (text ++ withDots input ++ List.replicate (1 + free) 0) := by
  induction input generalizing text with
  | nil => simp [storeBytes, withDots]
  | cons byte input ih =>
      have byte_lt : byte.toNat < 10 ^ tempLen := byte.toNat_lt.trans (by decide)
      have filled := fillTemp_eq (by decide : 0 < tempLen) byte_lt
      have length_eq := length_withDots_cons byte input
      have plain_digits : 0 ∉ text ++ decimal byte := by
        rw [List.mem_append, not_or]
        exact ⟨plain, zero_notMem_decimal byte⟩
      have plain_next : 0 ∉ text ++ decimal byte ++ [dot] := by
        rw [List.mem_append, not_or]
        exact ⟨plain_digits, by decide⟩
      have shape : text ++ List.replicate ((withDots (byte :: input)).length + 1 + free) 0 =
          text ++ List.replicate (decimal byte).reverse.length 0 ++ [] ++
            (0 :: List.replicate ((withDots input).length + 1 + free) 0) := by
        have count : (withDots (byte :: input)).length + 1 + free =
            (decimal byte).reverse.length + ((withDots input).length + 1 + free + 1) := by
          rw [length_eq, List.length_reverse]
          omega
        rw [count, List.replicate_add, List.replicate_succ]
        simp
      rw [storeBytes, filled]
      simp only [Option.bind_eq_bind, Option.bind_some]
      rw [shape, storeDigits_spec plain]
      simp only [Option.bind_some, List.reverse_reverse, List.append_nil]
      rw [strlen_append plain_digits]
      simp only [Option.bind_some]
      have dotted_here : MemoryBlock.write
          (text ++ decimal byte ++ 0 :: List.replicate ((withDots input).length + 1 + free) 0)
          (text ++ decimal byte).length [dot] =
            some (text ++ decimal byte ++ [dot] ++
              List.replicate ((withDots input).length + 1 + free) 0) := by
        have written := MemoryBlock.write_append (text ++ decimal byte) [0] [dot]
          (List.replicate ((withDots input).length + 1 + free) 0) rfl
        rw [List.append_assoc _ [0] _] at written
        exact written
      rw [dotted_here]
      simp only [Option.bind_some]
      rw [ih plain_next]
      simp [withDots]

/-- The last dot is one too many. -/
theorem withDots_eq {bytes : List UInt8} (nonempty : bytes ≠ []) :
    withDots bytes = dotted bytes ++ [dot] := by
  induction bytes with
  | nil => exact absurd rfl nonempty
  | cons byte bytes ih =>
      cases bytes with
      | nil => simp [withDots, dotted]
      | cons next bytes =>
          have rest := ih (List.cons_ne_nil next bytes)
          simp only [withDots, dotted, List.flatMap_cons, List.map_cons,
            List.intercalate_cons_cons] at rest ⊢
          rw [rest]
          simp

theorem zero_notMem_dotted {bytes : List UInt8} (nonempty : bytes ≠ []) : 0 ∉ dotted bytes := by
  have plain : 0 ∉ withDots bytes := by
    rw [withDots, List.mem_flatMap]
    rintro ⟨byte, -, mem⟩
    rcases List.mem_append.mp mem with digit | last
    · exact zero_notMem_decimal byte digit
    · exact absurd last (by decide)
  rw [withDots_eq nonempty, List.mem_append, not_or] at plain
  exact plain.1

theorem length_withDots_le (bytes : List UInt8) : (withDots bytes).length ≤ 4 * bytes.length := by
  induction bytes with
  | nil => exact Nat.le_refl 0
  | cons byte bytes ih =>
      have digits := (length_decimal byte).2
      rw [length_withDots_cons, List.length_cons]
      omega

/-- On a zeroed block with enough room, `intToStr` leaves the dotted decimal form of its input and
zeros behind it. -/
theorem intToStr_eq {input : List UInt8} (nonempty : input ≠ []) {size : Nat}
    (roomy : 4 * input.length < size) :
    intToStr input (List.replicate size 0) =
      some (dotted input ++ List.replicate (size - (dotted input).length) 0) := by
  have length_le := length_withDots_le input
  obtain ⟨free, size_eq⟩ : ∃ free, size = (withDots input).length + 1 + free :=
    Nat.exists_eq_add_of_le (by omega)
  have plain : 0 ∉ withDots input := by
    rw [withDots_eq nonempty, List.mem_append, not_or]
    exact ⟨zero_notMem_dotted nonempty, by decide⟩
  have stored := storeBytes_spec (List.not_mem_nil : (0 : UInt8) ∉ []) input free
  rw [List.nil_append, List.nil_append, ← size_eq, Nat.add_comm 1 free,
    List.replicate_succ] at stored
  have behind : size - (dotted input).length = free + 1 + 1 := by
    rw [size_eq, withDots_eq nonempty, List.length_append, List.length_singleton]
    omega
  rw [intToStr, stored]
  simp only [Option.bind_eq_bind, Option.bind_some]
  rw [strlen_append plain]
  simp only [Option.bind_some]
  rw [withDots_eq nonempty, List.length_append, List.length_singleton, Nat.add_sub_cancel,
    MemoryBlock.write_append _ [dot] [0] _ rfl, behind, List.replicate_succ, List.replicate_succ]
  simp

/-- What `intToStr` leaves is terminated by a zero. -/
theorem intToStr_spec {input : List UInt8} (nonempty : input ≠ []) {size : Nat}
    (roomy : 4 * input.length < size) :
    ∃ rest, intToStr input (List.replicate size 0) = some (dotted input ++ 0 :: rest) := by
  have length_le := length_withDots_le input
  rw [withDots_eq nonempty, List.length_append, List.length_singleton] at length_le
  obtain ⟨more, room⟩ : ∃ more, size - (dotted input).length = more + 1 :=
    Nat.exists_eq_add_of_le' (by omega)
  exact ⟨_, by rw [intToStr_eq nonempty roomy, room, List.replicate_succ]⟩

end DnsProtocol
end NetworkBase
