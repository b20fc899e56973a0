import NetworkBase.Dns.AddressText
import NetworkBase.Dns.Termination

/-!
# Accepted addresses

An answer, read as its format says, holds a question and records one behind the other, and some of
the records are addresses.  `ResponseParse` accepts the first record whose length it takes for
four.  It looks neither at the type nor at the class, and does not ask where the address ends.
-/

namespace NetworkBase
namespace DnsProtocol

/-! ## The format -/

/-- The number in the two bytes at `i`. -/
def wordAt (buffer : Nat → UInt8) (i : Nat) : Nat := 256 * (buffer i).toNat + (buffer (i + 1)).toNat

/-- The four bytes at `i`. -/
def addressAt (buffer : Nat → UInt8) (i : Nat) : List UInt8 :=
  [buffer i, buffer (i + 1), buffer (i + 2), buffer (i + 3)]

/-- The label at `i` of an uncompressed name is followed by what stands at `next`. -/
def NextLabel (buffer : Nat → UInt8) (i next : Nat) : Prop :=
  0 < (buffer i).toNat ∧ (buffer i).toNat ≤ 63 ∧ next = i + 1 + (buffer i).toNat

/-- The question begins behind the header and its name ends at `i`. -/
def QuestionEndsAt (buffer : Nat → UInt8) (i : Nat) : Prop :=
  Relation.ReflTransGen (NextLabel buffer) 12 i ∧ buffer i = 0

/-- A compressed name stands at `i`. -/
def Compressed (buffer : Nat → UInt8) (i : Nat) : Prop := 0xC0 ≤ (buffer i).toNat

/-- The record at `i` is an address: its type is A, its class IN, its length four. -/
def IsAddress (buffer : Nat → UInt8) (i : Nat) : Prop :=
  wordAt buffer (i + 2) = 1 ∧ wordAt buffer (i + 4) = 1 ∧ wordAt buffer (i + 10) = 4

/-- The record at `i`, which is no address, is followed by the one at `next`. -/
def NextRecord (buffer : Nat → UInt8) (i next : Nat) : Prop :=
  Compressed buffer i ∧ ¬IsAddress buffer i ∧ next = i + 12 + wordAt buffer (i + 10)

/-- The first address of the packet stands at `i`, wholly within the first `len` bytes. -/
def FirstAddress (buffer : Nat → UInt8) (len i : Nat) : Prop :=
  (∃ last, QuestionEndsAt buffer last ∧
    Relation.ReflTransGen (NextRecord buffer) (last + 5) i) ∧
    Compressed buffer i ∧ IsAddress buffer i ∧ i + 16 ≤ len

instance (buffer : Nat → UInt8) (i : Nat) : Decidable (IsAddress buffer i) :=
  inferInstanceAs (Decidable (_ ∧ _ ∧ _))

/-! ## What the parser finds -/

/-- The lengths, as the parser reads them, lead to a record of length four. -/
def FoundAt (buffer : Nat → UInt8) (len i : UInt32) : Prop :=
  RecordAt buffer len i ∧ i < len ∧ i + 12 < len ∧ lengthAt buffer i = 4

/-- The parser accepts only the first address of the packet, and reports a failure otherwise. -/
def AcceptsGenuine (buffer : Nat → UInt8) (len : UInt32) : Prop :=
  ∀ ip, ∃ fuel result, responseParse fuel buffer len ip = some result ∧
    (result = (-1, ip) ∨ ∃ i, FirstAddress buffer len.toNat i ∧
      result = (0, dotted (addressAt buffer (i + 12))))

/-- The record at `i` is the first address of the packet, or carries its four bytes by chance. -/
def Genuine (buffer : Nat → UInt8) (len i : UInt32) : Prop :=
  FirstAddress buffer len.toNat i.toNat ∨ ∃ other, FirstAddress buffer len.toNat other ∧
    addressAt buffer (i + 12).toNat = addressAt buffer (other + 12)

variable {buffer : Nat → UInt8} {len i : UInt32} {ip : List UInt8}

/-- Four bytes are turned into their dotted decimal form. -/
theorem finish_addressAt (buffer : Nat → UInt8) (data : UInt32) (ip : List UInt8) :
    finish buffer ip (.address data) = some (0, dotted (addressAt buffer data.toNat)) := by
  have stored : MemoryBlock.Stored buffer data.toNat (addressAt buffer data.toNat) :=
    ⟨rfl, rfl, rfl, rfl, trivial⟩
  exact finish_address stored rfl ip

/-- What the walk finds is accepted. -/
theorem responseParse_of_foundAt (found : FoundAt buffer len i) (ip : List UInt8) :
    ∃ fuel, responseParse fuel buffer len ip =
      some (0, dotted (addressAt buffer (i + 12).toNat)) := by
  obtain ⟨⟨zero, ends, inside, reaches⟩, begins, more, four⟩ := found
  have last : nextRecord buffer len i = .inr (.address (i + 12)) := by
    rw [nextRecord_unfold, if_pos begins, if_neg (UInt32.not_le.mpr more), if_pos four]
  have walked : WhileLoop.Returns (nextRecord buffer len) (zero + (1 + 4)) (.address (i + 12)) :=
    (WhileLoop.returns_iff_of_reaches (reaches_nextRecord_iff.mpr reaches)).mpr
      (WhileLoop.Returns.done last)
  exact (responseParse_iff_of_skipped (returns_skipName_iff.mpr ends)
    (UInt32.not_le.mpr inside)).mpr ⟨_, walked, finish_addressAt buffer (i + 12) ip⟩

/-- A result is a failure that leaves `ip` alone, or what the walk finds. -/
theorem responseParse_cases {fuel : Nat} {result : Int × List UInt8}
    (execution : responseParse fuel buffer len ip = some result) :
    result = (-1, ip) ∨
      ∃ i, FoundAt buffer len i ∧ result = (0, dotted (addressAt buffer (i + 12).toNat)) := by
  rw [responseParse, Option.bind_eq_bind, Option.bind_eq_some_iff] at execution
  obtain ⟨zero, named, execution⟩ := execution
  split at execution
  · exact Or.inl (Option.some.inj execution).symm
  · rename_i inside
    rw [Option.bind_eq_bind, Option.bind_eq_some_iff] at execution
    obtain ⟨stop, walked, finished⟩ := execution
    obtain ⟨last, reaches, done⟩ := WhileLoop.Returns.exists_last ⟨fuel, walked⟩
    have record : RecordAt buffer len last :=
      ⟨zero, returns_skipName_iff.mp ⟨fuel, named⟩, UInt32.not_le.mp inside,
        reaches_nextRecord_iff.mp reaches⟩
    rw [nextRecord_unfold] at done
    split_ifs at done with begins ended four
    · cases done
      exact Or.inl (Option.some.inj finished).symm
    · cases done
      rw [finish_addressAt] at finished
      exact Or.inr ⟨last, ⟨record, begins, UInt32.not_le.mp ended, four⟩,
        (Option.some.inj finished).symm⟩
    · cases done
      exact Or.inl (Option.some.inj finished).symm

/-- The parser accepts only genuine addresses if and only if the lengths never lead back to an index
and every record of length four that they lead to is genuine. -/
theorem acceptsGenuine_iff (buffer : Nat → UInt8) (len : UInt32) :
    AcceptsGenuine buffer len ↔
      Straight buffer len ∧ ∀ i, FoundAt buffer len i → Genuine buffer len i := by
  constructor
  · intro accepts
    have finishes : Finishes buffer len := by
      intro ip
      obtain ⟨fuel, result, execution, -⟩ := accepts ip
      exact ⟨fuel, result, execution⟩
    refine ⟨finishes_iff_straight.mp finishes, ?_⟩
    intro i found
    obtain ⟨fuel, result, execution, outcome⟩ := accepts []
    obtain ⟨more, accepted⟩ := responseParse_of_foundAt found []
    obtain rfl := responseParse_unique execution accepted
    rcases outcome with failed | ⟨other, first, same⟩
    · have codes : (0 : Int) = -1 := congrArg Prod.fst failed
      exact absurd codes (by decide)
    · exact Or.inr ⟨other, first, dotted_injective (congrArg Prod.snd same)⟩
  · rintro ⟨straight, genuine⟩ ip
    obtain ⟨fuel, result, execution⟩ := finishes_iff_straight.mpr straight ip
    refine ⟨fuel, result, execution, ?_⟩
    rcases responseParse_cases execution with failed | ⟨i, found, result_eq⟩
    · exact Or.inl failed
    · right
      rcases genuine i found with first | ⟨other, first, same⟩
      · have fits : i.toNat + 12 < 2 ^ 32 := by
          have := len.toNat_lt
          have := first.2.2.2
          omega
        have data_eq : (i + 12).toNat = i.toNat + 12 := toNat_add_of_lt fits
        exact ⟨i.toNat, first, by rw [result_eq, data_eq]⟩
      · exact ⟨other, first, by rw [result_eq, same]⟩

end DnsProtocol
end NetworkBase
