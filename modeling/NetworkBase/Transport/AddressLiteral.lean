import Mathlib.Tactic
import NetworkBase.Library.Span
import NetworkBase.Transport.SocketAssistant

/-!
# Address literals

An IPv4 literal consists of four groups of decimal digits with dots between them.  `IpValid` looks
at a text twice, with `sscanf` and character by character, and `inet_addr` reads it once more in its
own way.  What each of them makes of groups of digits is found here.
-/

namespace NetworkBase
namespace SocketAssistant

/-- A group of decimal digits. -/
@[ext]
structure Digits where
  chars : List UInt8
  nonempty : chars ≠ []
  digit : ∀ char ∈ chars, isDigit char = true

namespace Digits

/-- The decimal value of a group. -/
def value (group : Digits) : Nat := decimal group.chars

/-- What `%d` stores for a group. -/
def stored (overflow : Int → Int) (group : Digits) : Int :=
  if (group.value : Int) < 2 ^ 31 then group.value else overflow group.value

end Digits

/-- Four groups of digits. -/
@[ext]
structure Quad where
  a : Digits
  b : Digits
  c : Digits
  d : Digits

namespace Quad

def groups (quad : Quad) : List Digits := [quad.a, quad.b, quad.c, quad.d]

/-- The groups with dots between them. -/
def text (quad : Quad) : List UInt8 :=
  quad.a.chars ++ 46 :: (quad.b.chars ++ 46 :: (quad.c.chars ++ 46 :: quad.d.chars))

end Quad

/-- An IPv4 literal: no value is above 255. -/
structure Ipv4Literal extends Quad where
  small : ∀ group ∈ toQuad.groups, group.value ≤ 255

/-- The address a literal spells, in host order. -/
def Ipv4Literal.address (literal : Ipv4Literal) : UInt32 :=
  UInt32.ofNat (literal.a.value * 2 ^ 24 + literal.b.value * 2 ^ 16 + literal.c.value * 2 ^ 8 +
    literal.d.value)

/-- A text of digits and dots. -/
def Plain (text : List UInt8) : Prop := ∀ char ∈ text, char = 46 ∨ isDigit char = true

/-- A text that does not go on with a digit. -/
abbrev Ends (rest : List UInt8) : Prop := Span.Stops isDigit rest

theorem ends_dot (rest : List UInt8) : Ends (46 :: rest) := Span.stops_cons (by decide) rest

/-! ## `sscanf` -/

theorem toNat_of_isDigit {char : UInt8} (digit : isDigit char = true) :
    48 ≤ char.toNat ∧ char.toNat ≤ 57 := by
  rwa [isDigit, decide_eq_true_eq, UInt8.le_iff_toNat_le, UInt8.le_iff_toNat_le] at digit

/-- Neither a digit nor a dot is white space or a sign. -/
theorem unsigned_of_plain {char : UInt8} (plain : char = 46 ∨ isDigit char = true) :
    isSpace char = false ∧ char ≠ 43 ∧ char ≠ 45 := by
  have range : 46 ≤ char.toNat ∧ char.toNat ≤ 57 := by
    rcases plain with rfl | digit
    · decide
    · have := toNat_of_isDigit digit
      omega
  refine ⟨?_, ?_, ?_⟩
  · rw [isSpace, decide_eq_false_iff_not, UInt8.le_iff_toNat_le, UInt8.le_iff_toNat_le,
      ← UInt8.toNat_inj]
    change ¬(char.toNat = 32 ∨ 9 ≤ char.toNat ∧ char.toNat ≤ 13)
    omega
  · rintro rfl
    exact absurd range.1 (by decide)
  · rintro rfl
    exact absurd range.1 (by decide)

/-- Where a text does not begin with white space or a sign, `%d` reads its first digits. -/
theorem scanInt_unsigned (overflow : Int → Int) {text : List UInt8}
    (unsigned : ∀ char ∈ text.head?, isSpace char = false ∧ char ≠ 43 ∧ char ≠ 45) :
    scanInt overflow text =
      if text.takeWhile isDigit = [] then none
      else
        some (if (decimal (text.takeWhile isDigit) : Int) < 2 ^ 31 then
            (decimal (text.takeWhile isDigit) : Int)
          else overflow (decimal (text.takeWhile isDigit)), text.dropWhile isDigit) := by
  have trimmed : text.dropWhile isSpace = text := by
    cases text with
    | nil => rfl
    | cons char rest => rw [List.dropWhile_cons_of_neg (by simp [(unsigned char rfl).1])]
  have nonneg : (-2 ^ 31 : Int) ≤ decimal (text.takeWhile isDigit) :=
    le_trans (by decide) (Int.natCast_nonneg _)
  rw [scanInt, trimmed]
  split
  rename_i negative later sign
  obtain ⟨rfl, rfl⟩ : false = negative ∧ text = later := by
    split at sign
    · exact absurd rfl (unsigned 43 rfl).2.1
    · exact absurd rfl (unsigned 45 rfl).2.2
    · exact Prod.mk.inj sign
  simp only [nonneg, true_and, Bool.false_eq_true, if_false]

/-- `%d` reads a group. -/
theorem scanInt_digits (overflow : Int → Int) (group : Digits) {rest : List UInt8}
    (ends : Ends rest) :
    scanInt overflow (group.chars ++ rest) = some (group.stored overflow, rest) := by
  have taken := Span.takeWhile_append group.digit ends
  have dropped := Span.dropWhile_append group.digit ends
  have unsigned : ∀ char ∈ (group.chars ++ rest).head?,
      isSpace char = false ∧ char ≠ 43 ∧ char ≠ 45 := by
    intro char mem
    rw [List.head?_append_of_ne_nil _ group.nonempty] at mem
    exact unsigned_of_plain (Or.inr (group.digit char (List.mem_of_mem_head? mem)))
  rw [scanInt_unsigned overflow unsigned, taken, dropped, if_neg group.nonempty]
  rfl

/-- In a text of digits and dots, `%d` reads nothing but a group. -/
theorem exists_digits_of_scanInt {overflow : Int → Int} {text rest : List UInt8} {value : Int}
    (plain : Plain text) (scanned : scanInt overflow text = some (value, rest)) :
    ∃ group : Digits, text = group.chars ++ rest ∧ Ends rest ∧ value = group.stored overflow := by
  have unsigned : ∀ char ∈ text.head?, isSpace char = false ∧ char ≠ 43 ∧ char ≠ 45 :=
    fun char mem => unsigned_of_plain (plain char (List.mem_of_mem_head? mem))
  rw [scanInt_unsigned overflow unsigned] at scanned
  split at scanned
  · contradiction
  · rename_i nonempty
    let group : Digits :=
      { chars := text.takeWhile isDigit
        nonempty
        digit := fun char mem => List.mem_takeWhile_imp mem }
    obtain ⟨rfl, rfl⟩ := Prod.mk.inj (Option.some.inj scanned)
    exact ⟨group, List.takeWhile_append_dropWhile.symm, Span.stops_dropWhile _ text, rfl⟩

theorem scanDot_eq_some {text rest : List UInt8} (scanned : scanDot text = some rest) :
    text = 46 :: rest := by
  unfold scanDot at scanned
  split at scanned
  · rw [Option.some.inj scanned]
  · contradiction

/-- `sscanf` reads four groups. -/
theorem scanParts_text (overflow : Int → Int) (quad : Quad) {rest : List UInt8}
    (ends : Ends rest) :
    scanParts overflow (quad.text ++ rest) =
      some (quad.a.stored overflow, quad.b.stored overflow, quad.c.stored overflow,
        quad.d.stored overflow) := by
  have dotted (group : Digits) (later : List UInt8) :
      scanInt overflow (group.chars ++ 46 :: later) = some (group.stored overflow, 46 :: later) :=
    scanInt_digits overflow group (ends_dot later)
  have passed (later : List UInt8) : scanDot (46 :: later) = some later := rfl
  simp only [scanParts, Quad.text, List.append_assoc, List.cons_append, dotted, passed,
    scanInt_digits overflow quad.d ends, Option.bind_eq_bind, Option.bind_some]

theorem Plain.right (front : List UInt8) {back : List UInt8} (plain : Plain (front ++ back)) :
    Plain back :=
  fun char mem => plain char (List.mem_append_right _ mem)

/-- In a text of digits and dots, `sscanf` reads nothing but four groups. -/
theorem exists_quad_of_scanParts {overflow : Int → Int} {text : List UInt8}
    {parts : Int × Int × Int × Int} (plain : Plain text)
    (scanned : scanParts overflow text = some parts) :
    ∃ (quad : Quad) (rest : List UInt8), text = quad.text ++ rest ∧ Ends rest := by
  simp only [scanParts, Option.bind_eq_bind, Option.bind_eq_some_iff] at scanned
  obtain ⟨⟨_, _⟩, first, _, dot₁, ⟨_, _⟩, second, _, dot₂, ⟨_, _⟩, third, _, dot₃, ⟨_, rest⟩,
    fourth, -⟩ := scanned
  obtain ⟨a, rfl, -, -⟩ := exists_digits_of_scanInt plain first
  obtain rfl := scanDot_eq_some dot₁
  have plain := Plain.right [46] (plain.right _)
  obtain ⟨b, rfl, -, -⟩ := exists_digits_of_scanInt plain second
  obtain rfl := scanDot_eq_some dot₂
  have plain := Plain.right [46] (plain.right _)
  obtain ⟨c, rfl, -, -⟩ := exists_digits_of_scanInt plain third
  obtain rfl := scanDot_eq_some dot₃
  have plain := Plain.right [46] (plain.right _)
  obtain ⟨d, rfl, ends, -⟩ := exists_digits_of_scanInt plain fourth
  exact ⟨⟨a, b, c, d⟩, rest, by simp [Quad.text], ends⟩

/-! ## `IpValid` -/

theorem Digits.plain (group : Digits) : Plain group.chars :=
  fun char mem => Or.inr (group.digit char mem)

theorem Quad.plain (quad : Quad) : Plain quad.text := by
  intro char mem
  simp only [Quad.text, List.mem_append, List.mem_cons] at mem
  rcases mem with in_a | rfl | in_b | rfl | in_c | rfl | in_d
  · exact quad.a.plain char in_a
  · exact Or.inl rfl
  · exact quad.b.plain char in_b
  · exact Or.inl rfl
  · exact quad.c.plain char in_c
  · exact Or.inl rfl
  · exact quad.d.plain char in_d

theorem cStr_plain {text : List UInt8} (plain : Plain text) : cStr text = text := by
  refine cStr_of_plain fun zero => ?_
  rcases plain 0 zero with dot | digit
  · exact absurd dot (by decide)
  · exact absurd digit (by decide)

/-- `IpValid` accepts four groups whose stored values are at most 255, whatever digits and dots
follow the last group. -/
theorem ipValidWith_iff (overflow : Int → Int) (ip : List UInt8) :
    ipValidWith overflow ip = true ↔
      ∃ (quad : Quad) (rest : List UInt8), ip = quad.text ++ rest ∧ Ends rest ∧ Plain rest ∧
        ∀ group ∈ quad.groups, group.stored overflow ≤ 255 := by
  constructor
  · intro valid
    rw [ipValidWith] at valid
    split at valid
    · contradiction
    · rename_i part₁ part₂ part₃ part₄ scanned
      split at valid
      · contradiction
      · rename_i bounded
        have plain : Plain ip := by
          intro char mem
          simpa using List.all_eq_true.mp valid char mem
        rw [cStr_plain plain] at scanned
        obtain ⟨quad, rest, rfl, ends⟩ := exists_quad_of_scanParts plain scanned
        rw [scanParts_text overflow quad ends] at scanned
        simp only [Option.some.injEq, Prod.mk.injEq] at scanned
        obtain ⟨rfl, rfl, rfl, rfl⟩ := scanned
        refine ⟨quad, rest, rfl, ends, plain.right, ?_⟩
        simp only [Quad.groups, List.mem_cons, List.not_mem_nil, or_false]
        rintro group (rfl | rfl | rfl | rfl) <;> omega
  · rintro ⟨quad, rest, rfl, ends, plain, bounded⟩
    have whole : Plain (quad.text ++ rest) := by
      intro char mem
      rcases List.mem_append.mp mem with front | back
      · exact quad.plain char front
      · exact plain char back
    simp only [Quad.groups, List.forall_mem_cons, List.not_mem_nil, false_implies, implies_true,
      and_true] at bounded
    rw [ipValidWith, cStr_plain whole, scanParts_text overflow quad ends]
    simp only
    rw [if_neg (by omega)]
    exact List.all_eq_true.mpr fun char mem => decide_eq_true (whole char mem)

/-- The groups of a text and what follows them are determined. -/
theorem Quad.unique {quad quad' : Quad} {rest rest' : List UInt8} (ends : Ends rest)
    (ends' : Ends rest') (same : quad.text ++ rest = quad'.text ++ rest') :
    quad = quad' ∧ rest = rest' := by
  simp only [Quad.text, List.append_assoc, List.cons_append] at same
  obtain ⟨a_eq, same⟩ :=
    Span.unique quad.a.digit (ends_dot _) quad'.a.digit (ends_dot _) same
  obtain ⟨b_eq, same⟩ := Span.unique quad.b.digit (ends_dot _) quad'.b.digit (ends_dot _)
    (List.cons.inj same).2
  obtain ⟨c_eq, same⟩ := Span.unique quad.c.digit (ends_dot _) quad'.c.digit (ends_dot _)
    (List.cons.inj same).2
  obtain ⟨d_eq, same⟩ := Span.unique quad.d.digit ends quad'.d.digit ends' (List.cons.inj same).2
  exact ⟨Quad.ext (Digits.ext a_eq) (Digits.ext b_eq) (Digits.ext c_eq) (Digits.ext d_eq), same⟩

/-- `IpValid` accepts more than a literal: something follows the fourth group, or a group outside
`int` is stored as a small number. -/
def Overread (overflow : Int → Int) (ip : List UInt8) : Prop :=
  ∃ (quad : Quad) (rest : List UInt8), ip = quad.text ++ rest ∧ Ends rest ∧ Plain rest ∧
    (∀ group ∈ quad.groups, group.stored overflow ≤ 255) ∧
    (rest ≠ [] ∨ ∃ group ∈ quad.groups, 2 ^ 31 ≤ group.value)

theorem Digits.stored_of_lt {group : Digits} (inside : group.value < 2 ^ 31)
    (overflow : Int → Int) : group.stored overflow = group.value :=
  if_pos (by omega)

/-- `IpValid` accepts every literal. -/
theorem Ipv4Literal.valid (literal : Ipv4Literal) (overflow : Int → Int) :
    ipValidWith overflow literal.text = true := by
  refine (ipValidWith_iff overflow _).mpr
    ⟨literal.toQuad, [], (List.append_nil _).symm, Span.stops_nil,
      fun _ mem => absurd mem List.not_mem_nil, ?_⟩
  intro group mem
  have small := literal.small group mem
  rw [Digits.stored_of_lt (by omega)]
  omega

/-- Apart from what it accepts too much, `IpValid` accepts exactly the literals. -/
theorem ipValidWith_iff_literal (overflow : Int → Int) (ip : List UInt8) :
    (ipValidWith overflow ip = true ↔ ∃ literal : Ipv4Literal, ip = literal.text) ↔
      ¬Overread overflow ip := by
  constructor
  · rintro exact_match ⟨quad, rest, rfl, ends, plain, bounded, more⟩
    obtain ⟨literal, same⟩ := exact_match.mp
      ((ipValidWith_iff overflow _).mpr ⟨quad, rest, rfl, ends, plain, bounded⟩)
    rw [← List.append_nil literal.text] at same
    obtain ⟨rfl, rfl⟩ := Quad.unique ends Span.stops_nil same
    rcases more with some_rest | ⟨group, mem, large⟩
    · exact some_rest rfl
    · have := literal.small group mem
      omega
  · intro exact_match
    constructor
    · intro valid
      obtain ⟨quad, rest, rfl, ends, plain, bounded⟩ := (ipValidWith_iff overflow ip).mp valid
      have none_left : rest = [] := by
        by_contra some_rest
        exact exact_match ⟨quad, rest, rfl, ends, plain, bounded, Or.inl some_rest⟩
      have inside : ∀ group ∈ quad.groups, group.value < 2 ^ 31 := by
        intro group mem
        by_contra large
        exact exact_match ⟨quad, rest, rfl, ends, plain, bounded,
          Or.inr ⟨group, mem, Nat.le_of_not_lt large⟩⟩
      refine ⟨⟨quad, ?_⟩, by rw [none_left, List.append_nil]⟩
      intro group mem
      have small := bounded group mem
      rw [Digits.stored_of_lt (inside group mem)] at small
      omega
    · rintro ⟨literal, rfl⟩
      exact literal.valid overflow

/-! ## `inet_addr` -/

/-- The values of digit characters. -/
def digitValues (chars : List UInt8) : List Nat := chars.map fun char => (char - 48).toNat

/-- Another digit at the end. -/
theorem numeral_concat (base : Nat) (digits : List Nat) (digit : Nat) :
    numeral base (digits ++ [digit]) = base * numeral base digits + digit := by
  rw [numeral, numeral, List.foldl_append]
  rfl

/-- Read with a smaller base, the same digits spell a smaller number. -/
theorem numeral_le_numeral {base other : Nat} (le : base ≤ other) (digits : List Nat) :
    numeral base digits ≤ numeral other digits := by
  induction digits using List.reverseRecOn with
  | nil => exact Nat.le_refl 0
  | append_singleton digits digit ih =>
      rw [numeral_concat, numeral_concat]
      exact Nat.add_le_add_right (Nat.mul_le_mul le ih) digit

/-- Octal digits spell the same number in decimal exactly if this number is less than eight. -/
theorem numeral_octal_iff {digits : List Nat} (octal : ∀ digit ∈ digits, digit < 8) :
    numeral 8 digits = numeral 10 digits ↔ numeral 10 digits < 8 := by
  induction digits using List.reverseRecOn with
  | nil => exact iff_of_true rfl (by decide)
  | append_singleton digits digit ih =>
      have last := octal digit (List.mem_append_right _ List.mem_cons_self)
      have le := numeral_le_numeral (by decide : 8 ≤ 10) digits
      rw [numeral_concat, numeral_concat]
      omega

/-- No digit is above the number. -/
theorem le_numeral {digits : List Nat} : ∀ digit ∈ digits, digit ≤ numeral 10 digits := by
  induction digits using List.reverseRecOn with
  | nil => exact fun _ mem => absurd mem List.not_mem_nil
  | append_singleton digits digit ih =>
      rw [numeral_concat]
      intro other mem
      rcases List.mem_append.mp mem with in_front | at_end
      · have := ih other in_front
        omega
      · rw [List.mem_singleton.mp at_end]
        omega

/-- The digits of 255 are octal. -/
theorem octal_of_numeral_eq {digits : List Nat} (decimal : ∀ digit ∈ digits, digit < 10)
    (same : numeral 10 digits = 0 ∨ numeral 10 digits = 2 ∨ numeral 10 digits = 25 ∨
      numeral 10 digits = 255) : ∀ digit ∈ digits, digit < 8 := by
  induction digits using List.reverseRecOn with
  | nil => exact fun _ mem => absurd mem List.not_mem_nil
  | append_singleton digits digit ih =>
      have last := decimal digit (List.mem_append_right _ List.mem_cons_self)
      rw [numeral_concat] at same
      have front := ih (fun digit mem => decimal digit (List.mem_append_left _ mem)) (by omega)
      intro other mem
      rcases List.mem_append.mp mem with in_front | at_end
      · exact front other in_front
      · rw [List.mem_singleton.mp at_end]
        omega

theorem digitValue_of_isDigit {char : UInt8} (digit : isDigit char = true) :
    digitValue char = some (char - 48).toNat := by
  rw [isDigit, decide_eq_true_eq] at digit
  exact if_pos digit

theorem digitValue_lt {char : UInt8} (digit : isDigit char = true) : (char - 48).toNat < 10 := by
  have range := toNat_of_isDigit digit
  have behind : (48 : UInt8) ≤ char := UInt8.le_iff_toNat_le.mpr range.1
  rw [UInt8.toNat_sub_of_le _ _ behind]
  change _ - 48 < 10
  omega

/-- The digits of a base at the front of a text. -/
theorem takeDigits_append {base : Nat} {digits rest : List UInt8}
    (digit : ∀ char ∈ digits, isDigit char = true)
    (small : ∀ value ∈ digitValues digits, value < base)
    (stops : ∀ char ∈ rest.head?, ∀ value ∈ digitValue char, base ≤ value) :
    takeDigits base (digits ++ rest) = (digitValues digits, rest) := by
  induction digits with
  | nil =>
      cases rest with
      | nil => rfl
      | cons char rest =>
          rw [List.nil_append, takeDigits]
          split
          · rfl
          · rename_i value valued
            rw [if_neg (Nat.not_lt.mpr (stops char rfl value valued))]
            rfl
  | cons char digits ih =>
      obtain ⟨first, later⟩ := List.forall_mem_cons.mp digit
      obtain ⟨first_lt, later_lt⟩ := List.forall_mem_cons.mp small
      rw [List.cons_append, takeDigits, digitValue_of_isDigit first]
      simp only [if_pos first_lt, ih later later_lt]
      rfl

/-- A digit that does not belong to the base stops the reading. -/
theorem takeDigits_stops {base : Nat} {digits : List UInt8} (rest : List UInt8)
    (digit : ∀ char ∈ digits, isDigit char = true)
    (large : ¬∀ value ∈ digitValues digits, value < base) :
    ∃ front char later, takeDigits base (digits ++ rest) = (front, char :: later) ∧
      isDigit char = true := by
  induction digits with
  | nil => exact absurd (fun _ mem => absurd mem List.not_mem_nil) large
  | cons char digits ih =>
      obtain ⟨first, later⟩ := List.forall_mem_cons.mp digit
      rw [List.cons_append, takeDigits, digitValue_of_isDigit first]
      by_cases first_lt : (char - 48).toNat < base
      · obtain ⟨front, stop, behind, taken, stop_digit⟩ :=
          ih later fun small => large (List.forall_mem_cons.mpr ⟨first_lt, small⟩)
        refine ⟨(char - 48).toNat :: front, stop, behind, ?_, stop_digit⟩
        simp only [if_pos first_lt, taken]
      · exact ⟨[], char, digits ++ rest, by simp only [if_neg first_lt], first⟩

/-- The base in which `strtoul` reads a group. -/
def Digits.base (group : Digits) : Nat := if group.chars.head? = some 48 then 8 else 10

/-- What `inet_addr` reads in place of a group, if it gets through it. -/
def Digits.inetValue (group : Digits) : Option Nat :=
  if ∀ value ∈ digitValues group.chars, value < group.base then
    some (numeral group.base (digitValues group.chars))
  else
    none

theorem Digits.digitValues_lt (group : Digits) : ∀ value ∈ digitValues group.chars, value < 10 := by
  intro value mem
  obtain ⟨char, char_mem, rfl⟩ := List.mem_map.mp mem
  exact digitValue_lt (group.digit char char_mem)

/-- Behind a group, a text ends or goes on with a dot. -/
def DotOrEnd (rest : List UInt8) : Prop := rest = [] ∨ ∃ later, rest = 46 :: later

/-- `strtoul` looks for digits of the base of the group. -/
theorem strtoul_digits (group : Digits) {rest : List UInt8} (behind : DotOrEnd rest) :
    strtoul (group.chars ++ rest) =
      (numeral group.base (takeDigits group.base (group.chars ++ rest)).1,
        (takeDigits group.base (group.chars ++ rest)).2) := by
  obtain ⟨first, chars, chars_eq⟩ := List.exists_cons_of_ne_nil group.nonempty
  rw [Digits.base, chars_eq, List.head?_cons, List.cons_append]
  by_cases zero : first = 48
  · subst zero
    rw [if_pos rfl]
    cases mark_eq : chars ++ rest with
    | nil => rfl
    | cons mark more =>
        -- What follows the zero is a digit or a dot, and so no mark of a hexadecimal number.
        have plain : mark = 46 ∨ isDigit mark = true := by
          have mem : mark ∈ chars ++ rest := by
            rw [mark_eq]
            exact List.mem_cons_self
          rcases List.mem_append.mp mem with in_chars | in_rest
          · refine Or.inr (group.digit mark ?_)
            rw [chars_eq]
            exact List.mem_cons_of_mem _ in_chars
          · cases chars with
            | cons char chars =>
                refine Or.inr (group.digit mark ?_)
                rw [chars_eq, (List.cons.inj mark_eq).1]
                exact List.mem_cons_of_mem _ List.mem_cons_self
            | nil =>
                rcases behind with rfl | ⟨later, rfl⟩
                · contradiction
                · exact Or.inl (List.cons.inj mark_eq).1.symm
        have unmarked : ¬((mark = 120 ∨ mark = 88) ∧ (takeDigits 16 more).1 ≠ []) := by
          rintro ⟨rfl | rfl, -⟩
          · exact absurd plain (by decide)
          · exact absurd plain (by decide)
        simp only [strtoul, if_neg unmarked]
  · rw [if_neg (by simpa using zero)]
    unfold strtoul
    split
    · rename_i same
      exact absurd (List.cons.inj same).1 zero
    · rename_i same
      exact absurd (List.cons.inj same).1 zero
    · rfl

/-- `strtoul` gets through a group, or stops at a digit within it. -/
theorem strtoul_cases (group : Digits) {rest : List UInt8} (behind : DotOrEnd rest) :
    (∃ value, group.inetValue = some value ∧ strtoul (group.chars ++ rest) = (value, rest)) ∨
      (group.inetValue = none ∧ ∃ value char later,
        strtoul (group.chars ++ rest) = (value, char :: later) ∧ isDigit char = true) := by
  rw [strtoul_digits group behind, Digits.inetValue]
  split
  · rename_i small
    have stops : ∀ char ∈ rest.head?, ∀ value ∈ digitValue char, group.base ≤ value := by
      intro char mem value valued
      rcases behind with rfl | ⟨later, rfl⟩
      · exact absurd mem (by simp)
      · obtain rfl := Option.some.inj mem
        have none_eq : digitValue 46 = none := by decide
        rw [none_eq] at valued
        contradiction
    rw [takeDigits_append group.digit small stops]
    exact Or.inl ⟨_, rfl, rfl⟩
  · rename_i large
    refine Or.inr ⟨rfl, ?_⟩
    obtain ⟨front, char, later, taken, digit⟩ := takeDigits_stops rest group.digit large
    exact ⟨_, char, later, by rw [taken], digit⟩

/-- A group is read as a number that is not above its decimal value. -/
theorem Digits.inetValue_le {group : Digits} {value : Nat} (read : group.inetValue = some value) :
    value ≤ group.value := by
  rw [inetValue] at read
  split at read
  · obtain rfl := Option.some.inj read
    refine numeral_le_numeral ?_ _
    rw [base]
    split <;> decide
  · contradiction

/-- A group is read as its decimal value unless it begins with a zero and is above seven. -/
theorem Digits.inetValue_iff (group : Digits) :
    group.inetValue = some group.value ↔ (group.chars.head? = some 48 → group.value < 8) := by
  have value_eq : group.value = numeral 10 (digitValues group.chars) := rfl
  by_cases zero : group.chars.head? = some 48
  · have base_eq : group.base = 8 := if_pos zero
    rw [inetValue, base_eq, value_eq]
    by_cases octal : ∀ value ∈ digitValues group.chars, value < 8
    · rw [if_pos octal, Option.some.injEq, numeral_octal_iff octal]
      exact ⟨fun small _ => small, fun small => small zero⟩
    · rw [if_neg octal]
      refine iff_of_false (by simp) fun small => octal fun digit mem => ?_
      exact (le_numeral digit mem).trans_lt (small zero)
  · have base_eq : group.base = 10 := if_neg zero
    rw [inetValue, base_eq, if_pos group.digitValues_lt]
    exact iff_of_true rfl fun first => absurd first zero

/-- A group that is not read is not 255. -/
theorem Digits.value_ne_of_unread {group : Digits} (unread : group.inetValue = none) :
    group.value ≠ 255 := by
  intro same
  have octal := octal_of_numeral_eq group.digitValues_lt (Or.inr (Or.inr (Or.inr same)))
  rw [inetValue, if_pos] at unread
  · contradiction
  · intro value mem
    rw [base]
    split
    · exact octal value mem
    · exact group.digitValues_lt value mem

/-- A group at the front of an address: `inet_addr` fails within it, or goes on behind it. -/
theorem inetParts_digits (group : Digits) (small : group.value ≤ 255) {rest : List UInt8}
    (behind : DotOrEnd rest) (parts : Nat) :
    inetParts (parts + 1) (group.chars ++ rest) =
      group.inetValue.bind fun value =>
        match rest with
        | [] => some [value]
        | _ :: later => if parts = 0 then none else (inetParts parts later).map (value :: ·) := by
  have first : ((group.chars ++ rest).head?.map isDigit).getD false = true := by
    rw [List.head?_append_of_ne_nil _ group.nonempty]
    obtain ⟨char, chars, chars_eq⟩ := List.exists_cons_of_ne_nil group.nonempty
    rw [chars_eq]
    exact group.digit char (by rw [chars_eq]; exact List.mem_cons_self)
  rw [inetParts, if_pos first]
  rcases strtoul_cases group behind with ⟨value, read, taken⟩ | ⟨unread, value, char, later, taken,
    digit⟩
  · have value_le := group.inetValue_le read
    have narrow : ¬value > 0xff := by omega
    simp only [taken, read, Option.bind_some]
    rw [if_neg (by omega)]
    rcases behind with rfl | ⟨later, rfl⟩
    · rfl
    · simp only [if_true, narrow, or_false]
  · have no_dot : char ≠ 46 := by
      rintro rfl
      contradiction
    have no_space : ¬isSpace char = true := by
      rw [(unsigned_of_plain (Or.inr digit)).1]
      exact Bool.false_ne_true
    simp only [taken, unread, if_neg no_dot, if_neg no_space, ite_self, Option.bind_none]

/-- Four numbers of one byte each determine an address, and an address them. -/
theorem address_injective {a b c d a' b' c' d' : Nat} (a_le : a ≤ 255) (b_le : b ≤ 255)
    (c_le : c ≤ 255) (d_le : d ≤ 255) (a_le' : a' ≤ 255) (b_le' : b' ≤ 255) (c_le' : c' ≤ 255)
    (d_le' : d' ≤ 255)
    (same : UInt32.ofNat (a * 2 ^ 24 + b * 2 ^ 16 + c * 2 ^ 8 + d) =
      UInt32.ofNat (a' * 2 ^ 24 + b' * 2 ^ 16 + c' * 2 ^ 8 + d')) :
    a = a' ∧ b = b' ∧ c = c' ∧ d = d' := by
  have numbers := congrArg UInt32.toNat same
  rw [UInt32.toNat_ofNat', UInt32.toNat_ofNat', Nat.mod_eq_of_lt (by omega),
    Nat.mod_eq_of_lt (by omega)] at numbers
  omega

/-- What `inet_addr` makes of a literal. -/
theorem inetAddr_text (literal : Ipv4Literal) :
    inetAddr literal.text =
      match literal.a.inetValue, literal.b.inetValue, literal.c.inetValue,
        literal.d.inetValue with
      | some a, some b, some c, some d =>
          UInt32.ofNat (a * 2 ^ 24 + b * 2 ^ 16 + c * 2 ^ 8 + d)
      | _, _, _, _ => 0xffffffff := by
  obtain ⟨a_le, b_le, c_le, d_le⟩ : literal.a.value ≤ 255 ∧ literal.b.value ≤ 255 ∧
      literal.c.value ≤ 255 ∧ literal.d.value ≤ 255 := by
    simpa [Quad.groups] using literal.small
  have dotted (later : List UInt8) : DotOrEnd (46 :: later) := Or.inr ⟨later, rfl⟩
  have last := inetParts_digits literal.d d_le (Or.inl rfl) 0
  rw [List.append_nil] at last
  rw [inetAddr, cStr_plain literal.plain, Quad.text, inetParts_digits literal.a a_le (dotted _) 3]
  simp only [inetParts_digits literal.b b_le (dotted _) 2,
    inetParts_digits literal.c c_le (dotted _) 1, last]
  cases literal.a.inetValue with
  | none => rfl
  | some a =>
      cases literal.b.inetValue with
      | none => rfl
      | some b =>
          cases literal.c.inetValue with
          | none => rfl
          | some c =>
              cases read : literal.d.inetValue with
              | none => rfl
              | some d =>
                  have narrow : ¬d > 0xff := by
                    have := literal.d.inetValue_le read
                    omega
                  exact if_neg narrow

/-- `inet_addr` reads a literal as the address it spells unless a group begins with a zero and is
above seven. -/
theorem inetAddr_iff (literal : Ipv4Literal) :
    inetAddr literal.text = literal.address ↔
      ∀ group ∈ literal.groups, group.chars.head? = some 48 → group.value < 8 := by
  obtain ⟨a_le, b_le, c_le, d_le⟩ : literal.a.value ≤ 255 ∧ literal.b.value ≤ 255 ∧
      literal.c.value ≤ 255 ∧ literal.d.value ≤ 255 := by
    simpa [Quad.groups] using literal.small
  have all_read : (∀ group ∈ literal.groups, group.chars.head? = some 48 → group.value < 8) ↔
      literal.a.inetValue = some literal.a.value ∧ literal.b.inetValue = some literal.b.value ∧
        literal.c.inetValue = some literal.c.value ∧
        literal.d.inetValue = some literal.d.value := by
    simp [Quad.groups, Digits.inetValue_iff]
  rw [all_read]
  constructor
  · intro same
    rw [inetAddr_text] at same
    split at same
    · rename_i a b c d a_eq b_eq c_eq d_eq
      have a_le' := literal.a.inetValue_le a_eq
      have b_le' := literal.b.inetValue_le b_eq
      have c_le' := literal.c.inetValue_le c_eq
      have d_le' := literal.d.inetValue_le d_eq
      obtain ⟨rfl, rfl, rfl, rfl⟩ := address_injective (a_le'.trans a_le) (b_le'.trans b_le)
        (c_le'.trans c_le) (d_le'.trans d_le) a_le b_le c_le d_le same
      exact ⟨a_eq, b_eq, c_eq, d_eq⟩
    · -- The error code is the address 255.255.255.255, whose groups are all read.
      rename_i unread
      have broadcast : (0xffffffff : UInt32) =
          UInt32.ofNat (255 * 2 ^ 24 + 255 * 2 ^ 16 + 255 * 2 ^ 8 + 255) := by decide
      rw [broadcast] at same
      obtain ⟨a_eq, b_eq, c_eq, d_eq⟩ := address_injective (by decide) (by decide) (by decide)
        (by decide) a_le b_le c_le d_le same
      have read (group : Digits) (value_eq : 255 = group.value) :
          ∃ value, group.inetValue = some value := by
        cases answer : group.inetValue with
        | none => exact absurd value_eq.symm (group.value_ne_of_unread answer)
        | some value => exact ⟨value, rfl⟩
      obtain ⟨a, a_read⟩ := read literal.a a_eq
      obtain ⟨b, b_read⟩ := read literal.b b_eq
      obtain ⟨c, c_read⟩ := read literal.c c_eq
      obtain ⟨d, d_read⟩ := read literal.d d_eq
      exact (unread a b c d a_read b_read c_read d_read).elim
  · rintro ⟨a_eq, b_eq, c_eq, d_eq⟩
    rw [inetAddr_text, a_eq, b_eq, c_eq, d_eq]
    rfl

end SocketAssistant
end NetworkBase
