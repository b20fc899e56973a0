import NetworkBase.Dns.AnswerWalk

/-!
# The scan of a name

`RequestConstruct` walks over the name once, with three indices of 32 bits: where the next byte is
stored, where the present label begins, and where the scan stands.  `requestConstruct` is what it
writes as long as none of them overflows.
-/

namespace NetworkBase
namespace DnsProtocol

/-- The variables of `RequestConstruct`, with the bytes it stored in `buffer` and their indices. -/
structure RequestState where
  i : UInt32
  sectionStart : UInt32
  qnameIndex : UInt32
  stores : List (Nat × UInt8)
  deriving DecidableEq, Repr

/-- Bytes that are stored from an index on. -/
def storedFrom : Nat → List UInt8 → List (Nat × UInt8)
  | _, [] => []
  | position, byte :: bytes => (position, byte) :: storedFrom (position + 1) bytes

namespace RequestState

/-- The variables at the beginning. -/
def start : RequestState where
  i := 0
  sectionStart := 0
  qnameIndex := 0
  stores := []

/-- `buffer[i++] = byte`. -/
def put (byte : UInt8) (state : RequestState) : RequestState :=
  { state with i := state.i + 1, stores := state.stores ++ [(state.i.toNat, byte)] }

/-- `memcpy` of `count` bytes of the domain, and `i += count`. -/
def copy (domain : List UInt8) (position count : UInt32) (state : RequestState) : RequestState :=
  { state with
    i := state.i + count
    stores := state.stores ++
      storedFrom state.i.toNat ((domain.drop position.toNat).take count.toNat) }

/-- Write the present label, and begin the next one behind it. -/
def closeSection (domain : List UInt8) (state : RequestState) : RequestState :=
  let count := state.qnameIndex - state.sectionStart
  let state := (state.put count.toUInt8).copy domain state.sectionStart count
  { state with sectionStart := state.qnameIndex + 1 }

/-- One iteration of the loop over the domain, which a zero terminates. -/
def next (domain : List UInt8) (state : RequestState) : RequestState ⊕ RequestState :=
  let state :=
    if (domain[state.qnameIndex.toNat]?).getD 0 = dot ∨
        state.qnameIndex.toNat = domain.length then
      state.closeSection domain
    else
      state
  if state.qnameIndex.toNat = domain.length then .inr state
  else .inl { state with qnameIndex := state.qnameIndex + 1 }

end RequestState

/-- The header of a request. -/
def requestHeader : List UInt8 :=
  twoBytes dnsIdField ++ twoBytes dnsCtrlField ++ twoBytes dnsQuestionCountField ++
    twoBytes dnsAnswerCountField ++ twoBytes dnsAuthorityCountField ++
    twoBytes dnsAdditionalCountField

/-- What follows the name. -/
def requestTrailer : List UInt8 := [0] ++ twoBytes dnsQtypeField ++ twoBytes dnsQclassField

/-- `RequestConstruct`, with fuel for its loop; `*index` is `i` in the end. -/
def requestScan (fuel : Nat) (domain : List UInt8) : Option RequestState :=
  let state := requestHeader.foldl (fun state byte => state.put byte) .start
  (WhileLoop.run (RequestState.next domain) fuel state).map fun state =>
    requestTrailer.foldl (fun state byte => state.put byte) state

/-! ## Stores in a row -/

theorem storedFrom_append (position : Nat) (front back : List UInt8) :
    storedFrom position (front ++ back) =
      storedFrom position front ++ storedFrom (position + front.length) back := by
  induction front generalizing position with
  | nil => rfl
  | cons byte front ih =>
      rw [List.cons_append, storedFrom, storedFrom, ih, List.cons_append, List.length_cons,
        Nat.add_assoc, Nat.add_comm 1]

/-- The indices of stores in a row. -/
theorem map_fst_storedFrom (position : Nat) (bytes : List UInt8) :
    (storedFrom position bytes).map Prod.fst = List.range' position bytes.length := by
  induction bytes generalizing position with
  | nil => rfl
  | cons byte bytes ih => rw [storedFrom, List.map_cons, ih, List.length_cons, List.range'_succ]

/-- The bytes of stores in a row. -/
theorem map_snd_storedFrom (position : Nat) (bytes : List UInt8) :
    (storedFrom position bytes).map Prod.snd = bytes := by
  induction bytes generalizing position with
  | nil => rfl
  | cons byte bytes ih => rw [storedFrom, List.map_cons, ih]

namespace RequestState

/-- Where the state stands once these bytes are stored in a row. -/
structure Stored (before : RequestState) (bytes : List UInt8) (after : RequestState) : Prop where
  i : after.i.toNat = before.i.toNat + bytes.length
  stores : after.stores = before.stores ++ storedFrom before.i.toNat bytes

namespace Stored

variable {before middle after : RequestState} {front back : List UInt8}

theorem trans (first : Stored before front middle) (second : Stored middle back after) :
    Stored before (front ++ back) after := by
  constructor
  · rw [second.i, first.i, List.length_append, Nat.add_assoc]
  · rw [second.stores, first.stores, first.i, storedFrom_append, List.append_assoc]

/-- One more byte, where the index does not overflow. -/
theorem put (byte : UInt8) {state : RequestState} (fits : state.i.toNat + 1 < 2 ^ 32) :
    Stored state [byte] (state.put byte) := by
  exact ⟨toNat_next fits, rfl⟩

/-- Several bytes, where the index does not overflow. -/
theorem puts (bytes : List UInt8) {state : RequestState}
    (fits : state.i.toNat + bytes.length < 2 ^ 32) :
    Stored state bytes (bytes.foldl (fun state byte => state.put byte) state) := by
  induction bytes generalizing state with
  | nil => exact ⟨rfl, (List.append_nil _).symm⟩
  | cons byte bytes ih =>
      rw [List.length_cons] at fits
      have first : Stored state [byte] (state.put byte) := put byte (by omega)
      have moved := first.i
      rw [List.length_singleton] at moved
      exact first.trans (ih (by omega))

end Stored
/-! ## The loop over the domain -/

section Iteration

variable {domain : List UInt8} {state : RequestState}

/-- At the terminating zero the loop writes the last label and ends. -/
theorem next_of_end (ended : state.qnameIndex.toNat = domain.length) :
    next domain state = .inr (state.closeSection domain) := by
  have same : (state.closeSection domain).qnameIndex = state.qnameIndex := rfl
  simp only [next, if_pos (Or.inr ended), same, if_pos ended]

/-- At a dot the loop writes a label and goes on. -/
theorem next_of_dot (more : state.qnameIndex.toNat ≠ domain.length)
    (here : (domain[state.qnameIndex.toNat]?).getD 0 = dot) :
    next domain state =
      .inl { state.closeSection domain with qnameIndex := state.qnameIndex + 1 } := by
  have same : (state.closeSection domain).qnameIndex = state.qnameIndex := rfl
  simp only [next, if_pos (Or.inl here), same, if_neg more]

/-- At any other character the loop goes on. -/
theorem next_of_char (more : state.qnameIndex.toNat ≠ domain.length)
    (here : (domain[state.qnameIndex.toNat]?).getD 0 ≠ dot) :
    next domain state = .inl { state with qnameIndex := state.qnameIndex + 1 } := by
  have open_label : ¬((domain[state.qnameIndex.toNat]?).getD 0 = dot ∨
      state.qnameIndex.toNat = domain.length) := not_or.mpr ⟨here, more⟩
  simp only [next, if_neg open_label, if_neg more]

/-- The loop ends at the terminating zero only. -/
theorem closed_of_next {final : RequestState} (done : next domain state = .inr final) :
    state.qnameIndex.toNat = domain.length ∧ final = state.closeSection domain := by
  by_cases ended : state.qnameIndex.toNat = domain.length
  · rw [next_of_end ended] at done
    exact ⟨ended, (Sum.inr.inj done).symm⟩
  · by_cases here : (domain[state.qnameIndex.toNat]?).getD 0 = dot
    · rw [next_of_dot ended here] at done
      contradiction
    · rw [next_of_char ended here] at done
      contradiction

/-- Anywhere else it goes on by one character, behind a label it may have stored. -/
theorem cases_of_next {later : RequestState} (step : next domain state = .inl later) :
    state.qnameIndex.toNat ≠ domain.length ∧
      (later = { state.closeSection domain with qnameIndex := state.qnameIndex + 1 } ∨
        later = { state with qnameIndex := state.qnameIndex + 1 }) := by
  by_cases ended : state.qnameIndex.toNat = domain.length
  · rw [next_of_end ended] at step
    contradiction
  · by_cases here : (domain[state.qnameIndex.toNat]?).getD 0 = dot
    · rw [next_of_dot ended here] at step
      exact ⟨ended, Or.inl (Sum.inl.inj step).symm⟩
    · rw [next_of_char ended here] at step
      exact ⟨ended, Or.inr (Sum.inl.inj step).symm⟩

end Iteration

/-- The scan stands behind `label`, which begins behind `front`. -/
structure Scanning (domain front label back : List UInt8) (state : RequestState) : Prop where
  domain_eq : domain = front ++ label ++ back
  sectionStart : state.sectionStart.toNat = front.length
  qnameIndex : state.qnameIndex.toNat = front.length + label.length

variable {domain front label back : List UInt8} {state : RequestState}

/-- At the end of a label, its length and its bytes are stored. -/
theorem Scanning.closeSection (scanning : Scanning domain front label back state)
    (fits : state.i.toNat + (label.length + 1) < 2 ^ 32) :
    Stored state (writeSection label) (state.closeSection domain) := by
  have start_le : state.sectionStart ≤ state.qnameIndex := by
    rw [UInt32.le_iff_toNat_le, scanning.sectionStart, scanning.qnameIndex]
    omega
  have count_eq : (state.qnameIndex - state.sectionStart).toNat = label.length := by
    rw [UInt32.toNat_sub_of_le _ _ start_le, scanning.sectionStart, scanning.qnameIndex]
    omega
  have length_byte : (state.qnameIndex - state.sectionStart).toUInt8 =
      UInt8.ofNat label.length := by
    apply UInt8.toNat_inj.mp
    rw [UInt32.toNat_toUInt8, count_eq]
    rfl
  have first : Stored state [UInt8.ofNat label.length]
      (state.put (UInt8.ofNat label.length)) := Stored.put _ (by omega)
  have moved : (state.put (UInt8.ofNat label.length)).i.toNat = state.i.toNat + 1 := first.i
  have bytes_eq : (domain.drop state.sectionStart.toNat).take label.length = label := by
    rw [scanning.domain_eq, scanning.sectionStart, List.append_assoc, List.drop_left,
      List.take_left]
  have second : Stored (state.put (UInt8.ofNat label.length)) label
      (state.closeSection domain) := by
    constructor
    · rw [RequestState.closeSection, length_byte]
      change ((state.put _).i + (state.qnameIndex - state.sectionStart)).toNat = _
      rw [toNat_add_of_lt (by omega), count_eq, moved]
    · rw [RequestState.closeSection, length_byte]
      change (state.put _).stores ++ storedFrom _ ((domain.drop state.sectionStart.toNat).take _) =
        _
      rw [count_eq, bytes_eq]
  exact first.trans second

theorem length_writeName (label back : List UInt8) :
    (writeName label back).length = label.length + back.length + 1 := by
  induction back generalizing label with
  | nil => simp [writeName, writeSection]
  | cons char back ih =>
      rw [writeName]
      split
      · rw [List.length_append, ih, writeSection, List.length_cons, List.length_nil,
          List.length_cons]
        omega
      · rw [ih, List.length_append, List.length_singleton, List.length_cons]
        omega

/-- The character the scan stands at. -/
theorem Scanning.here {char : UInt8} (scanning : Scanning domain front label (char :: back) state) :
    state.qnameIndex.toNat ≠ domain.length ∧
      (domain[state.qnameIndex.toNat]?).getD 0 = char := by
  rw [scanning.qnameIndex, ← List.length_append, scanning.domain_eq]
  constructor
  · simp
  · simp

theorem Scanning.advance {char : UInt8}
    (scanning : Scanning domain front label (char :: back) state)
    (short : domain.length < 2 ^ 32) :
    (state.qnameIndex + 1).toNat = front.length + label.length + 1 := by
  have length_eq : domain.length = front.length + label.length + (back.length + 1) := by
    rw [scanning.domain_eq, List.length_append, List.length_append, List.length_cons]
  rw [toNat_next (by rw [scanning.qnameIndex]; omega), scanning.qnameIndex]

/-- Behind a dot the next label begins. -/
theorem Scanning.passDot {char : UInt8}
    (scanning : Scanning domain front label (char :: back) state)
    (short : domain.length < 2 ^ 32) :
    Scanning domain (front ++ label ++ [char]) [] back
      { state.closeSection domain with qnameIndex := state.qnameIndex + 1 } := by
  have advance := scanning.advance short
  constructor
  · rw [scanning.domain_eq]
    simp
  · rw [List.length_append, List.length_append]
    exact advance
  · rw [List.length_append, List.length_append]
    exact advance

/-- Behind any other character the label goes on. -/
theorem Scanning.passChar {char : UInt8}
    (scanning : Scanning domain front label (char :: back) state)
    (short : domain.length < 2 ^ 32) :
    Scanning domain front (label ++ [char]) back
      { state with qnameIndex := state.qnameIndex + 1 } := by
  have advance := scanning.advance short
  constructor
  · rw [scanning.domain_eq]
    simp
  · exact scanning.sectionStart
  · rw [List.length_append, ← Nat.add_assoc]
    exact advance

/-- The rest of the scan stores what `writeName` says. -/
theorem Scanning.returns (scanning : Scanning domain front label back state)
    (short : domain.length < 2 ^ 32)
    (fits : state.i.toNat + (label.length + back.length + 1) < 2 ^ 32) :
    ∃ final, WhileLoop.Returns (RequestState.next domain) state final ∧
      Stored state (writeName label back) final := by
  induction back generalizing front label state with
  | nil =>
      have ended : state.qnameIndex.toNat = domain.length := by
        rw [scanning.qnameIndex, scanning.domain_eq, List.append_nil, List.length_append]
      have closed := scanning.closeSection fits
      exact ⟨state.closeSection domain, WhileLoop.Returns.done (next_of_end ended), closed⟩
  | cons char back ih =>
      obtain ⟨more, here⟩ := scanning.here
      rw [List.length_cons] at fits
      by_cases dotted : char = dot
      · have closed := scanning.closeSection (by omega)
        have moved := closed.i
        rw [writeSection, List.length_cons] at moved
        let after : RequestState :=
          { state.closeSection domain with qnameIndex := state.qnameIndex + 1 }
        have step : next domain state = .inl after := next_of_dot more (here.trans dotted)
        have after_i : after.i.toNat = state.i.toNat + (label.length + 1) := moved
        obtain ⟨final, returns, stored⟩ := ih (scanning.passDot short) (by
          change after.i.toNat + (0 + back.length + 1) < _
          omega)
        refine ⟨final, returns.step step, ?_⟩
        rw [writeName, if_pos dotted]
        have reached : Stored state (writeSection label) after := ⟨closed.i, closed.stores⟩
        exact reached.trans stored
      · have step : next domain state =
            .inl { state with qnameIndex := state.qnameIndex + 1 } :=
          next_of_char more fun at_dot => dotted (here.symm.trans at_dot)
        obtain ⟨final, returns, stored⟩ := ih (scanning.passChar short) (by
          rw [List.length_append, List.length_singleton]
          change state.i.toNat + _ < _
          omega)
        refine ⟨final, returns.step step, ?_⟩
        rw [writeName, if_neg dotted]
        exact ⟨stored.i, stored.stores⟩

end RequestState

theorem length_requestConstruct (domain : List UInt8) :
    (requestConstruct domain).length = domain.length + 18 := by
  simp only [requestConstruct, List.length_append, RequestState.length_writeName]
  change 12 + (0 + domain.length + 1) + 1 + 2 + 2 = _
  omega

/-- As long as the indices do not overflow, `RequestConstruct` returns and stores the request in a
row. -/
theorem requestScan_spec (domain : List UInt8) (short : domain.length + 18 < 2 ^ 32) :
    ∃ fuel final, requestScan fuel domain = some final ∧
      final.i.toNat = (requestConstruct domain).length ∧
      final.stores = storedFrom 0 (requestConstruct domain) := by
  let state := requestHeader.foldl (fun state byte => RequestState.put byte state) .start
  have header : RequestState.Stored .start requestHeader state :=
    RequestState.Stored.puts _ (by decide)
  have state_i : state.i.toNat = 12 := header.i
  have scanning : RequestState.Scanning domain [] [] domain state := ⟨rfl, rfl, rfl⟩
  obtain ⟨named, ⟨fuel, execution⟩, name⟩ := scanning.returns (by omega) (by
    rw [state_i]
    change 12 + (0 + domain.length + 1) < _
    omega)
  have named_i := name.i
  rw [state_i, RequestState.length_writeName] at named_i
  have trailer : RequestState.Stored named requestTrailer
      (requestTrailer.foldl (fun state byte => RequestState.put byte state) named) :=
    RequestState.Stored.puts _ (by
      rw [named_i]
      change 12 + (0 + domain.length + 1) + 5 < _
      omega)
  have whole := (header.trans name).trans trailer
  have request_eq : requestHeader ++ writeName [] domain ++ requestTrailer =
      requestConstruct domain := by
    simp only [requestConstruct, requestHeader, requestTrailer, List.append_assoc]
  rw [request_eq] at whole
  refine ⟨fuel, _, ?_, ?_, whole.stores⟩
  · rw [requestScan, execution]
    rfl
  · rw [whole.i]
    exact Nat.zero_add _

/-- `RequestConstruct` has one result. -/
theorem requestScan_unique {domain : List UInt8} {fuel more : Nat} {final other : RequestState}
    (first : requestScan fuel domain = some final)
    (second : requestScan more domain = some other) : final = other := by
  rw [requestScan, Option.map_eq_some_iff] at first second
  obtain ⟨named, execution, rfl⟩ := first
  obtain ⟨named', execution', rfl⟩ := second
  obtain rfl : named = named' := WhileLoop.Returns.unique ⟨fuel, execution⟩ ⟨more, execution'⟩
  rfl

/-! ## A buffer that is too small -/

/-- All indices are below the size. -/
def Inside (size : Nat) (stores : List (Nat × UInt8)) : Prop := ∀ store ∈ stores, store.1 < size

/-- Stores in a row that end below the size. -/
theorem inside_storedFrom_iff {size position : Nat} {bytes : List UInt8} (nonempty : bytes ≠ []) :
    Inside size (storedFrom position bytes) ↔ position + bytes.length ≤ size := by
  have length_pos := List.length_pos_iff.mpr nonempty
  have mem_iff (index : Nat) : (∃ store ∈ storedFrom position bytes, store.1 = index) ↔
      position ≤ index ∧ index < position + bytes.length := by
    have mem := List.mem_map (f := Prod.fst) (l := storedFrom position bytes) (b := index)
    rw [map_fst_storedFrom, List.mem_range'_1] at mem
    exact mem.symm
  constructor
  · intro inside
    obtain ⟨store, store_mem, last⟩ :=
      (mem_iff (position + bytes.length - 1)).mpr ⟨by omega, by omega⟩
    have := inside store store_mem
    omega
  · intro fits store store_mem
    have := ((mem_iff store.1).mp ⟨store, store_mem, rfl⟩).2
    omega

namespace RequestState

/-- As long as all stores are below the size, the index follows the scan. -/
structure Confined (domain : List UInt8) (size : Nat) (state : RequestState) : Prop where
  sectionStart_le : state.sectionStart.toNat ≤ state.qnameIndex.toNat
  qnameIndex_le : state.qnameIndex.toNat ≤ domain.length
  index : Inside size state.stores → state.i.toNat = 12 + state.sectionStart.toNat

/-- A label that is stored below the size moves the index behind it. -/
theorem Confined.closeSection {domain : List UInt8} {size : Nat} {state : RequestState}
    (confined : Confined domain size state) (small : size < 2 ^ 32)
    (inside : Inside size (state.closeSection domain).stores) :
    (state.closeSection domain).i.toNat = 13 + state.qnameIndex.toNat ∧
      (state.closeSection domain).i.toNat ≤ size := by
  have start_le : state.sectionStart ≤ state.qnameIndex :=
    UInt32.le_iff_toNat_le.mpr confined.sectionStart_le
  have start_le' := confined.sectionStart_le
  have q_le := confined.qnameIndex_le
  obtain ⟨count, count_eq⟩ : ∃ count, state.qnameIndex - state.sectionStart = count := ⟨_, rfl⟩
  have count_nat : count.toNat = state.qnameIndex.toNat - state.sectionStart.toNat := by
    rw [← count_eq, UInt32.toNat_sub_of_le _ _ start_le]
  have stores_eq : (state.closeSection domain).stores =
      state.stores ++ [(state.i.toNat, count.toUInt8)] ++
        storedFrom (state.i + 1).toNat
          ((domain.drop state.sectionStart.toNat).take count.toNat) := by
    rw [← count_eq]
    rfl
  have i_eq : (state.closeSection domain).i = state.i + 1 + count := by
    rw [← count_eq]
    rfl
  rw [stores_eq] at inside
  have before : Inside size state.stores := fun store mem =>
    inside store (List.mem_append_left _ (List.mem_append_left _ mem))
  have at_i : state.i.toNat < size :=
    inside (state.i.toNat, count.toUInt8) (by simp)
  have index_eq := confined.index before
  have next_i : (state.i + 1).toNat = state.i.toNat + 1 := toNat_next (by omega)
  have length_eq : ((domain.drop state.sectionStart.toNat).take count.toNat).length =
      count.toNat := by
    rw [List.length_take, List.length_drop]
    omega
  have behind : state.i.toNat + 1 + count.toNat ≤ size := by
    by_cases empty : count.toNat = 0
    · omega
    · have nonempty : (domain.drop state.sectionStart.toNat).take count.toNat ≠ [] :=
        List.ne_nil_of_length_pos (by omega)
      have label : Inside size (storedFrom (state.i + 1).toNat
          ((domain.drop state.sectionStart.toNat).take count.toNat)) := fun store mem =>
        inside store (List.mem_append_right _ mem)
      rw [inside_storedFrom_iff nonempty, next_i, length_eq] at label
      exact label
  have sum : (state.i + 1 + count).toNat = state.i.toNat + 1 + count.toNat := by
    rw [toNat_add_of_lt (by omega), next_i]
  rw [i_eq, sum]
  omega

/-- One character further, the index still follows the scan. -/
theorem Confined.next {domain : List UInt8} {size : Nat} {state later : RequestState}
    (confined : Confined domain size state) (small : size < 2 ^ 32)
    (short : domain.length < 2 ^ 32) (step : RequestState.next domain state = .inl later) :
    Confined domain size later := by
  have start_le := confined.sectionStart_le
  have q_le := confined.qnameIndex_le
  obtain ⟨more, moved⟩ := cases_of_next step
  have advance : (state.qnameIndex + 1).toNat = state.qnameIndex.toNat + 1 :=
    toNat_next (by omega)
  rcases moved with rfl | rfl
  · refine ⟨Nat.le_refl _, ?_, ?_⟩
    · change (state.qnameIndex + 1).toNat ≤ _
      omega
    · intro inside
      have index_eq := (confined.closeSection small inside).1
      change (state.closeSection domain).i.toNat = 12 + (state.qnameIndex + 1).toNat
      omega
  · refine ⟨?_, ?_, confined.index⟩
    · change state.sectionStart.toNat ≤ (state.qnameIndex + 1).toNat
      omega
    · change (state.qnameIndex + 1).toNat ≤ _
      omega

/-- A scan whose stores are all below the size reached the end of the domain, and its index lies
there. -/
theorem confined_of_returns {domain : List UInt8} {size : Nat} {state final : RequestState}
    (returns : WhileLoop.Returns (RequestState.next domain) state final)
    (confined : Confined domain size state) (small : size < 2 ^ 32)
    (inside : Inside size final.stores) :
    final.i.toNat = 13 + domain.length ∧ final.i.toNat ≤ size := by
  have short : domain.length < 2 ^ 32 := by
    obtain ⟨last, -, done⟩ := returns.exists_last
    rw [← (closed_of_next done).1]
    exact last.qnameIndex.toNat_lt
  let Ended (final : RequestState) : Prop := Inside size final.stores →
    final.i.toNat = 13 + domain.length ∧ final.i.toNat ≤ size
  have ended : Ended final := by
    refine WhileLoop.Returns.of_invariant (Confined domain size) ?_ ?_ returns confined
    · intro state later confined step
      exact confined.next small short step
    · intro state last confined done inside
      obtain ⟨finished, rfl⟩ := closed_of_next done
      rw [← finished]
      exact confined.closeSection small inside
  exact ended inside

end RequestState

/-- A `RequestConstruct` that returns and stores only below a size has a short domain. -/
theorem length_le_of_inside {domain : List UInt8} {fuel size : Nat} {final : RequestState}
    (execution : requestScan fuel domain = some final) (small : size + 5 < 2 ^ 32)
    (inside : Inside size final.stores) : domain.length + 18 ≤ size := by
  rw [requestScan, Option.map_eq_some_iff] at execution
  obtain ⟨named, scanned, rfl⟩ := execution
  have grown : Inside size named.stores := by
    intro store mem
    apply inside
    simp [requestTrailer, twoBytes, RequestState.put, mem]
  have begun : RequestState.Confined domain size
      (requestHeader.foldl (fun state byte => RequestState.put byte state) .start) :=
    ⟨Nat.le_refl _, Nat.zero_le _, fun _ => rfl⟩
  obtain ⟨i_eq, i_le⟩ :=
    RequestState.confined_of_returns ⟨fuel, scanned⟩ begun (by omega) grown
  have trailer : RequestState.Stored named requestTrailer
      (requestTrailer.foldl (fun state byte => RequestState.put byte state) named) :=
    RequestState.Stored.puts _ (by
      change _ + 5 < _
      omega)
  have behind : Inside size (storedFrom named.i.toNat requestTrailer) := by
    intro store mem
    apply inside
    rw [trailer.stores]
    exact List.mem_append_right _ mem
  rw [inside_storedFrom_iff (by decide)] at behind
  change _ + 5 ≤ size at behind
  omega

/-! ## Reading a request back -/

/-- The labels of a name and what follows it: a length, as many bytes, up to the length zero. -/
def decodeLabels : Nat → List UInt8 → Option (List (List UInt8) × List UInt8)
  | 0, _ => none
  | _ + 1, [] => none
  | fuel + 1, size :: bytes =>
      if size = 0 then some ([], bytes)
      else if size.toNat ≤ bytes.length then
        (decodeLabels fuel (bytes.drop size.toNat)).map fun (labels, rest) =>
          (bytes.take size.toNat :: labels, rest)
      else none

/-- The name at the front of some bytes, and what follows it. -/
def decodeName (bytes : List UInt8) : Option (List (List UInt8) × List UInt8) :=
  decodeLabels bytes.length bytes

/-- Encoded labels are read back. -/
theorem decodeLabels_encode (labels : List Label) (rest : List UInt8) (fuel : Nat)
    (enough : labels.length < fuel) :
    decodeLabels fuel (encodeLabels labels ++ 0 :: rest) =
      some (labels.map Label.bytes, rest) := by
  induction labels generalizing fuel with
  | nil =>
      obtain ⟨fuel, rfl⟩ := Nat.exists_eq_add_of_lt enough
      rfl
  | cons label labels ih =>
      obtain ⟨fuel, rfl⟩ := Nat.exists_eq_add_of_lt enough
      have length_le := label.length_le
      have length_pos := List.length_pos_iff.mpr label.nonempty
      have size_eq : (UInt8.ofNat label.bytes.length).toNat = label.bytes.length := by
        rw [UInt8.toNat_ofNat']
        exact Nat.mod_eq_of_lt (by omega)
      have nonzero : UInt8.ofNat label.bytes.length ≠ 0 := by
        intro zero
        rw [zero] at size_eq
        exact length_pos.ne size_eq
      have shape : encodeLabels (label :: labels) ++ 0 :: rest =
          UInt8.ofNat label.bytes.length ::
            (label.bytes ++ (encodeLabels labels ++ 0 :: rest)) := by
        simp [encodeLabels, writeSection]
      have inside : label.bytes.length ≤
          (label.bytes ++ (encodeLabels labels ++ 0 :: rest)).length := by
        rw [List.length_append]
        exact Nat.le_add_right _ _
      rw [shape, decodeLabels, if_neg nonzero, size_eq, if_pos inside, List.drop_left,
        List.take_left, ih _ (by rw [List.length_cons]; omega)]
      rfl

theorem length_le_encodeLabels (labels : List Label) :
    labels.length ≤ (encodeLabels labels).length := by
  induction labels with
  | nil => exact Nat.le_refl 0
  | cons label labels ih =>
      have shape : encodeLabels (label :: labels) =
          UInt8.ofNat label.bytes.length :: (label.bytes ++ encodeLabels labels) := by
        simp [encodeLabels, writeSection]
      rw [shape, List.length_cons, List.length_cons, List.length_append]
      omega

/-- The question of a request is read back. -/
theorem decodeName_request (name : DomainName) :
    decodeName ((requestConstruct name.text).drop 12) =
      some (name.labels.map Label.bytes, twoBytes dnsQtypeField ++ twoBytes dnsQclassField) := by
  have bytes_le := length_le_encodeLabels name.labels
  rw [question_eq, decodeName]
  apply decodeLabels_encode name.labels [0, 1, 0, 1] _
  rw [List.length_append]
  change _ < _ + 5
  omega

/-- A request names its domain. -/
theorem text_of_requestConstruct {name other : DomainName}
    (same : requestConstruct name.text = requestConstruct other.text) : name.text = other.text := by
  have first := decodeName_request name
  rw [same, decodeName_request other, Option.some.injEq, Prod.mk.injEq] at first
  rw [DomainName.text, DomainName.text, first.1]

/-- A request for a name of up to 253 bytes: 18 bytes more than the name are written, one behind the
other; what follows the header is the labels of the name, then the type A and the class IN; and no
other name has this request. -/
theorem request_roundTrip (name : DomainName) (short : name.text.length ≤ 253) :
    ∃ fuel final, requestScan fuel name.text = some final ∧
      final.i.toNat = name.text.length + 18 ∧
      final.stores.map Prod.fst = List.range (name.text.length + 18) ∧
      decodeName ((final.stores.map Prod.snd).drop 12) =
        some (name.labels.map Label.bytes, [0, 1, 0, 1]) ∧
      ∀ other : DomainName, other.text.length ≤ 253 → other.text ≠ name.text →
        ∀ more final', requestScan more other.text = some final' →
          final'.stores.map Prod.snd ≠ final.stores.map Prod.snd := by
  have scanned (name : DomainName) (short : name.text.length ≤ 253) :
      ∃ fuel final, requestScan fuel name.text = some final ∧
        final.i.toNat = name.text.length + 18 ∧
        final.stores.map Prod.fst = List.range (name.text.length + 18) ∧
        final.stores.map Prod.snd = requestConstruct name.text := by
    obtain ⟨fuel, final, execution, i_eq, stores_eq⟩ :=
      requestScan_spec name.text (by omega)
    refine ⟨fuel, final, execution, ?_, ?_, ?_⟩
    · rw [i_eq, length_requestConstruct]
    · rw [stores_eq, map_fst_storedFrom, length_requestConstruct, List.range_eq_range']
    · rw [stores_eq, map_snd_storedFrom]
  obtain ⟨fuel, final, execution, i_eq, indices, bytes_eq⟩ := scanned name short
  refine ⟨fuel, final, execution, i_eq, indices, ?_, ?_⟩
  · rw [bytes_eq]
    exact decodeName_request name
  · intro other other_short differs more final' execution'
    obtain ⟨most, final'', execution'', -, -, bytes_eq'⟩ := scanned other other_short
    obtain rfl := requestScan_unique execution' execution''
    rw [bytes_eq, bytes_eq']
    exact fun same => differs (text_of_requestConstruct same)

/-- The name ab.c. -/
def twoLabels : DomainName where
  labels :=
    [{ bytes := [97, 98], nonempty := by decide, length_le := by decide, plain := by simp [dot] },
     { bytes := [99], nonempty := by decide, length_le := by decide, plain := by simp [dot] }]
  nonempty := by decide

theorem request_roundTrip_twoLabels :
    ∃ fuel final, requestScan fuel [97, 98, dot, 99] = some final ∧ final.i.toNat = 22 ∧
      decodeName ((final.stores.map Prod.snd).drop 12) =
        some ([[97, 98], [99]], [0, 1, 0, 1]) := by
  have short : twoLabels.text.length ≤ 253 := by decide
  obtain ⟨fuel, final, execution, i_eq, -, decoded, -⟩ := request_roundTrip twoLabels short
  exact ⟨fuel, final, execution, i_eq, decoded⟩

end DnsProtocol
end NetworkBase
