import NetworkBase.Dns.WalkPositions

/-!
# Reading behind the packet

`ResponseParse` gets a pointer and a length.  `responseReads` lists the indices it reads; nothing
else of the memory has an influence on the result.  The parser stays inside the packet unless the
packet is cut off at one of three places.
-/

namespace NetworkBase
namespace DnsProtocol

/-- The indices an iteration over the labels reads. -/
def labelReads (i : UInt32) : List Nat := [i.toNat]

/-- The indices an iteration over the records reads, with those that `intToStr` reads when the
iteration finds an address. -/
def recordReads (buffer : Nat → UInt8) (len i : UInt32) : List Nat :=
  if i < len then
    [(i + 10).toNat, (i + 11).toNat] ++
      if i + 12 ≥ len then []
      else if lengthAt buffer i = 4 then
        [(i + 12).toNat, (i + 12).toNat + 1, (i + 12).toNat + 2, (i + 12).toNat + 3]
      else []
  else
    []

/-- The indices `ResponseParse` reads. -/
def responseReads (fuel : Nat) (buffer : Nat → UInt8) (len : UInt32) : List Nat :=
  (WhileLoop.visited (skipName buffer) fuel 12).flatMap labelReads ++
    match WhileLoop.run (skipName buffer) fuel 12 with
    | none => []
    | some zero =>
        if zero ≥ len then []
        else (WhileLoop.visited (nextRecord buffer len) fuel (zero + (1 + 4))).flatMap
          (recordReads buffer len)

/-- The parser reads only the packet, so its result depends on nothing else. -/
structure StaysInside (buffer : Nat → UInt8) (len : UInt32) : Prop where
  reads : ∀ fuel, ∀ index ∈ responseReads fuel buffer len, index < len.toNat
  depends : ∀ other : Nat → UInt8, (∀ index < len.toNat, other index = buffer index) →
    ∀ fuel ip, responseParse fuel other len ip = responseParse fuel buffer len ip

/-- The packet is cut off within its walk. -/
inductive CutOff (buffer : Nat → UInt8) (len : UInt32) : Prop
  /-- The name of the question runs out of the packet. -/
  | name (i : UInt32) (label : LabelAt buffer i) (outside : len ≤ i)
  /-- A record begins in the packet, but a byte of its length lies outside. -/
  | length (i : UInt32) (record : RecordAt buffer len i) (inside : i < len)
      (outside : ¬(i + 10 < len ∧ i + 11 < len))
  /-- The data of an address begins in the packet, but does not end there. -/
  | address (i : UInt32) (record : RecordAt buffer len i) (inside : i < len)
      (more : i + 12 < len) (four : lengthAt buffer i = 4)
      (outside : len.toNat < (i + 12).toNat + 4)

variable {buffer other : Nat → UInt8} {len i zero : UInt32} {fuel : Nat}

/-! ## Only what is read has an influence -/

theorem skipName_congr (agree : ∀ index ∈ labelReads i, other index = buffer index) :
    skipName other i = skipName buffer i := by
  rw [skipName, skipName, agree i.toNat (List.mem_cons_self ..)]

theorem lengthAt_congr (inside : i < len)
    (agree : ∀ index ∈ recordReads buffer len i, other index = buffer index) :
    lengthAt other i = lengthAt buffer i := by
  rw [recordReads, if_pos inside] at agree
  rw [lengthAt, lengthAt, agree (i + 10).toNat (by simp), agree (i + 11).toNat (by simp)]

theorem nextRecord_congr (agree : ∀ index ∈ recordReads buffer len i, other index = buffer index) :
    nextRecord other len i = nextRecord buffer len i := by
  rw [nextRecord_unfold, nextRecord_unfold]
  by_cases inside : i < len
  · rw [lengthAt_congr inside agree]
  · rw [if_neg inside, if_neg inside]

/-- An iteration that finds an address leads to reading its four bytes. -/
theorem finish_congr {stop : RecordsEnd} (last : nextRecord buffer len i = .inr stop)
    (agree : ∀ index ∈ recordReads buffer len i, other index = buffer index) (ip : List UInt8) :
    finish other ip stop = finish buffer ip stop := by
  rw [nextRecord_unfold] at last
  split_ifs at last with inside ended four
  · cases last
    rfl
  · cases last
    rw [recordReads, if_pos inside, if_neg ended, if_pos four] at agree
    simp only [finish, agree (i + 12).toNat (by simp), agree ((i + 12).toNat + 1) (by simp),
      agree ((i + 12).toNat + 2) (by simp), agree ((i + 12).toNat + 3) (by simp)]
  · cases last
    rfl

/-- The result depends only on what was read. -/
theorem responseParse_congr
    (agree : ∀ index ∈ responseReads fuel buffer len, other index = buffer index)
    (ip : List UInt8) : responseParse fuel other len ip = responseParse fuel buffer len ip := by
  simp only [responseReads, List.forall_mem_append, List.forall_mem_flatMap] at agree
  obtain ⟨labels, records⟩ := agree
  have named : WhileLoop.run (skipName other) fuel 12 = WhileLoop.run (skipName buffer) fuel 12 :=
    WhileLoop.run_congr fun i mem => skipName_congr (labels i mem)
  rw [responseParse, responseParse, named]
  cases skipped : WhileLoop.run (skipName buffer) fuel 12 with
  | none => rw [Option.bind_eq_bind, Option.bind_eq_bind, Option.bind_none, Option.bind_none]
  | some zero =>
      rw [skipped] at records
      simp only [Option.bind_eq_bind, Option.bind_some]
      by_cases outside : zero ≥ len
      · rw [if_pos outside, if_pos outside]
      · simp only [if_neg outside, List.forall_mem_flatMap] at records
        have walked : WhileLoop.run (nextRecord other len) fuel (zero + (1 + 4)) =
            WhileLoop.run (nextRecord buffer len) fuel (zero + (1 + 4)) :=
          WhileLoop.run_congr fun i mem => nextRecord_congr (records i mem)
        rw [if_neg outside, if_neg outside, walked]
        cases ended : WhileLoop.run (nextRecord buffer len) fuel (zero + (1 + 4)) with
        | none => rw [Option.bind_none, Option.bind_none]
        | some stop =>
            obtain ⟨last, mem, done⟩ := WhileLoop.exists_last_of_run ended
            exact finish_congr done (records last mem) ip

/-! ## What is read -/

/-- The parser reads at the indices of the walk. -/
theorem mem_responseReads_iff {index : Nat} :
    (∃ fuel, index ∈ responseReads fuel buffer len) ↔
      (∃ i, LabelAt buffer i ∧ index ∈ labelReads i) ∨
        ∃ i, RecordAt buffer len i ∧ index ∈ recordReads buffer len i := by
  constructor
  · rintro ⟨fuel, mem⟩
    rw [responseReads, List.mem_append, List.mem_flatMap] at mem
    rcases mem with ⟨i, visit, mem⟩ | mem
    · exact Or.inl ⟨i, reaches_skipName_iff.mp (WhileLoop.mem_visited_iff.mp ⟨fuel, visit⟩), mem⟩
    · right
      split at mem
      · exact absurd mem List.not_mem_nil
      · rename_i zero skipped
        split at mem
        · exact absurd mem List.not_mem_nil
        · rename_i inside
          obtain ⟨i, visit, mem⟩ := List.mem_flatMap.mp mem
          have reaches := reaches_nextRecord_iff.mp (WhileLoop.mem_visited_iff.mp ⟨fuel, visit⟩)
          have ends := returns_skipName_iff.mp ⟨fuel, skipped⟩
          exact ⟨i, ⟨zero, ends, UInt32.not_le.mp inside, reaches⟩, mem⟩
  · rintro (⟨i, label, mem⟩ | ⟨i, ⟨zero, ends, inside, reaches⟩, mem⟩)
    · obtain ⟨fuel, visit⟩ := WhileLoop.mem_visited_iff.mpr (reaches_skipName_iff.mpr label)
      exact ⟨fuel, List.mem_append_left _ (List.mem_flatMap.mpr ⟨i, visit, mem⟩)⟩
    · obtain ⟨fuel, skipped⟩ := returns_skipName_iff.mpr ends
      obtain ⟨more, visit⟩ := WhileLoop.mem_visited_iff.mpr (reaches_nextRecord_iff.mpr reaches)
      have skipped := WhileLoop.run_mono (Nat.le_max_left fuel more) skipped
      have visit := WhileLoop.visited_mono (Nat.le_max_right fuel more) visit
      refine ⟨max fuel more, List.mem_append_right _ ?_⟩
      rw [skipped]
      simp only [if_neg (UInt32.not_le.mpr inside)]
      exact List.mem_flatMap.mpr ⟨i, visit, mem⟩

/-- All indices of a record are inside unless the packet is cut off there. -/
theorem recordReads_inside (whole : ¬CutOff buffer len) (record : RecordAt buffer len i)
    {index : Nat} (mem : index ∈ recordReads buffer len i) : index < len.toNat := by
  rw [recordReads] at mem
  split at mem
  · rename_i inside
    have lengths : i + 10 < len ∧ i + 11 < len := by
      by_contra outside
      exact whole (.length i record inside outside)
    rw [UInt32.lt_iff_toNat_lt, UInt32.lt_iff_toNat_lt] at lengths
    rcases List.mem_append.mp mem with mem | mem
    · simp only [List.mem_cons, List.not_mem_nil, or_false] at mem
      omega
    · split at mem
      · exact absurd mem List.not_mem_nil
      · rename_i more
        split at mem
        · rename_i four
          have data : (i + 12).toNat + 4 ≤ len.toNat := by
            by_contra outside
            exact whole (.address i record inside (UInt32.not_le.mp more) four (by omega))
          simp only [List.mem_cons, List.not_mem_nil, or_false] at mem
          omega
        · exact absurd mem List.not_mem_nil
  · exact absurd mem List.not_mem_nil

/-- The parser stays inside the packet if and only if the packet is cut off at none of the three
places. -/
theorem staysInside_iff_not_cutOff (buffer : Nat → UInt8) (len : UInt32) :
    StaysInside buffer len ↔ ¬CutOff buffer len := by
  constructor
  · intro stays
    have inside {index : Nat} (read : ∃ fuel, index ∈ responseReads fuel buffer len) :
        index < len.toNat := by
      obtain ⟨fuel, mem⟩ := read
      exact stays.reads fuel index mem
    rintro (⟨i, label, outside⟩ | ⟨i, record, begins, outside⟩ |
      ⟨i, record, begins, more, four, outside⟩)
    · have read := inside (mem_responseReads_iff.mpr (.inl ⟨i, label, List.mem_cons_self ..⟩))
      rw [UInt32.le_iff_toNat_le] at outside
      omega
    · have read (index : Nat) (mem : index ∈ recordReads buffer len i) :=
        inside (mem_responseReads_iff.mpr (.inr ⟨i, record, mem⟩))
      rw [recordReads, if_pos begins] at read
      have high := read (i + 10).toNat (by simp)
      have low := read (i + 11).toNat (by simp)
      exact outside ⟨UInt32.lt_iff_toNat_lt.mpr high, UInt32.lt_iff_toNat_lt.mpr low⟩
    · have read (index : Nat) (mem : index ∈ recordReads buffer len i) :=
        inside (mem_responseReads_iff.mpr (.inr ⟨i, record, mem⟩))
      rw [recordReads, if_pos begins, if_neg (UInt32.not_le.mpr more), if_pos four] at read
      have last := read ((i + 12).toNat + 3) (by simp)
      omega
  · intro whole
    have reads : ∀ fuel, ∀ index ∈ responseReads fuel buffer len, index < len.toNat := by
      intro fuel index mem
      rcases mem_responseReads_iff.mp ⟨fuel, mem⟩ with ⟨i, label, read⟩ | ⟨i, record, read⟩
      · have inside : i < len := by
          apply UInt32.not_le.mp
          intro outside
          exact whole (.name i label outside)
        rw [List.mem_singleton.mp read]
        exact UInt32.lt_iff_toNat_lt.mp inside
      · exact recordReads_inside whole record read
    refine ⟨reads, ?_⟩
    intro other same fuel ip
    exact responseParse_congr (fun index mem => same index (reads fuel index mem)) ip

/-- An answer that ends with the first byte of its address, in front of some other bytes. -/
def cutAddress (behind : List UInt8) (position : Nat) : UInt8 :=
  (([0x66, 0x66, 0x81, 0x80, 0, 1, 0, 1, 0, 0, 0, 0, 1, 97, 0, 0, 1, 0, 1,
    0xC0, 0x0C, 0, 1, 0, 1, 0, 0, 0, 60, 0, 4, 1] ++ behind)[position]?).getD 0

/-- The address found in this answer of 32 bytes is made of what lies behind it. -/
theorem cutAddress_leaks :
    (∀ position < 32, cutAddress [2, 3, 4] position = cutAddress [] position) ∧
      responseParse 2 (cutAddress [2, 3, 4]) 32 [] = some (0, dotted [1, 2, 3, 4]) ∧
      responseParse 2 (cutAddress []) 32 [] = some (0, dotted [1, 0, 0, 0]) ∧
      ¬StaysInside (cutAddress [2, 3, 4]) 32 := by
  have same : ∀ position < 32, cutAddress [2, 3, 4] position = cutAddress [] position := by
    decide
  have full : responseParse 2 (cutAddress [2, 3, 4]) 32 [] = some (0, dotted [1, 2, 3, 4]) := by
    decide +kernel
  have bare : responseParse 2 (cutAddress []) 32 [] = some (0, dotted [1, 0, 0, 0]) := by
    decide +kernel
  have differs : some ((0 : Int), dotted [1, 2, 3, 4]) ≠ some (0, dotted [1, 0, 0, 0]) := by
    decide +kernel
  refine ⟨same, full, bare, fun stays => ?_⟩
  have result_eq :=
    stays.depends (cutAddress []) (fun index inside => (same index inside).symm) 2 []
  exact differs ((full.symm.trans result_eq.symm).trans bare)

end DnsProtocol
end NetworkBase
