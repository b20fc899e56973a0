import NetworkBase.Dns.DnsProcess
import NetworkBase.Dns.RequestScan

/-!
# The queries that are sent

`OnConnect` lets `RequestConstruct` write the query into a buffer of fixed size, and asks for its
length afterwards.  Nothing looks at the name before.
-/

namespace NetworkBase

open DnsProtocol

/-- The labels of a name take one byte more than its text. -/
theorem DnsProtocol.length_encodeLabels (name : DomainName) :
    (encodeLabels name.labels).length = name.text.length + 1 := by
  have written := RequestState.length_writeName [] name.text
  rw [DomainName.text, writeName_text name.nonempty, List.length_nil, Nat.zero_add] at written
  exact written

/-- The text of a name contains no zero. -/
theorem DnsProtocol.zero_notMem_text (name : DomainName) : 0 ∉ name.text := by
  have plain (labels : List Label) :
      0 ∉ List.intercalate [dot] (labels.map Label.bytes) := by
    induction labels with
    | nil => exact List.not_mem_nil
    | cons label labels ih =>
        have head : 0 ∉ label.bytes := fun mem => (label.plain 0 mem).2 rfl
        cases labels with
        | nil => simpa using head
        | cons next labels =>
            rw [List.map_cons, List.map_cons, List.intercalate_cons_cons, List.append_assoc,
              List.mem_append, List.mem_append, ← List.map_cons]
            rintro (here | separator | later)
            · exact head here
            · exact absurd (List.mem_singleton.mp separator) (by decide)
            · exact ih later
  exact plain name.labels

namespace DnsProtocolProcess

/-! ## The buffer -/

/-- `RequestConstruct` returns and stores only inside the buffer, and a request that fills the
buffer is reported as a failure. -/
def StaysInBuffer (process : DnsProtocolProcess) : Prop :=
  ∃ fuel final, requestScan fuel (SocketAssistant.cStr process.addr) = some final ∧
    Inside kDnsRequestLen final.stores ∧
    (kDnsRequestLen ≤ final.i.toNat →
      onConnect process = ([.close], report failure { process with onResult := true }))

/-- What `OnConnect` does with a name. -/
theorem onConnect_eq {process : DnsProtocolProcess} (ready : process.init = true)
    (short : (SocketAssistant.cStr process.addr).length + 18 < 2 ^ 32) :
    onConnect process =
      if (SocketAssistant.cStr process.addr).length + 18 < kDnsRequestLen then
        ([.send (.bytes (requestConstruct (SocketAssistant.cStr process.addr)))], process)
      else
        ([.close], report failure { process with onResult := true }) := by
  have index_eq : (requestConstruct (SocketAssistant.cStr process.addr)).length % 2 ^ 32 =
      (SocketAssistant.cStr process.addr).length + 18 := by
    rw [length_requestConstruct]
    exact Nat.mod_eq_of_lt short
  have whole : (requestConstruct (SocketAssistant.cStr process.addr)).take
      ((SocketAssistant.cStr process.addr).length + 18) =
        requestConstruct (SocketAssistant.cStr process.addr) :=
    List.take_of_length_le (length_requestConstruct _).le
  have named : process.addr.takeWhile (· ≠ 0) = SocketAssistant.cStr process.addr := rfl
  simp only [onConnect, if_neg (not_not.mpr ready), named, index_eq, whole,
    Nat.zero_lt_succ, true_and, gt_iff_lt]

/-- The query stays in the buffer exactly if the name has at most 1006 bytes. -/
theorem staysInBuffer_iff (process : DnsProtocolProcess) (ready : process.init = true) :
    StaysInBuffer process ↔ (SocketAssistant.cStr process.addr).length ≤ 1006 := by
  constructor
  · rintro ⟨fuel, final, execution, inside, -⟩
    have := length_le_of_inside execution (by decide) inside
    change _ + 18 ≤ 1024 at this
    omega
  · intro short
    obtain ⟨fuel, final, execution, i_eq, stores_eq⟩ :=
      requestScan_spec (SocketAssistant.cStr process.addr) (by omega)
    rw [length_requestConstruct] at i_eq
    refine ⟨fuel, final, execution, ?_, ?_⟩
    · have nonempty : requestConstruct (SocketAssistant.cStr process.addr) ≠ [] :=
        List.ne_nil_of_length_pos (by rw [length_requestConstruct]; omega)
      rw [stores_eq, inside_storedFrom_iff nonempty, length_requestConstruct]
      change 0 + (_ + 18) ≤ 1024
      omega
    · intro full
      rw [onConnect_eq ready (by omega), if_neg (by omega)]

/-- A process that resolves a name. -/
def resolving (addr : List UInt8) : DnsProtocolProcess :=
  ((construct.setAddr addr 80).setSocket).setTimeout 0 5000

theorem staysInBuffer_iff_longestName :
    StaysInBuffer (resolving (List.replicate 1006 97)) ↔
      (SocketAssistant.cStr (resolving (List.replicate 1006 97)).addr).length ≤ 1006 :=
  staysInBuffer_iff (resolving (List.replicate 1006 97)) rfl

/-- The last byte for a name of 1007 characters is stored behind the buffer of 1024 bytes. -/
theorem longName_overflows :
    (∃ fuel final,
      requestScan fuel (SocketAssistant.cStr (resolving (List.replicate 1007 97)).addr) =
        some final ∧ (1024, 1) ∈ final.stores) ∧
      ¬StaysInBuffer (resolving (List.replicate 1007 97)) := by
  have text : SocketAssistant.cStr (resolving (List.replicate 1007 97)).addr =
      List.replicate 1007 97 :=
    SocketAssistant.cStr_of_plain (by
      rw [show (resolving (List.replicate 1007 97)).addr = List.replicate 1007 97 from rfl,
        List.mem_replicate]
      exact fun mem => absurd mem.2 (by decide))
  have length_eq : (List.replicate 1007 (97 : UInt8)).length = 1007 := List.length_replicate
  rw [StaysInBuffer, text]
  constructor
  · obtain ⟨fuel, final, execution, -, stores_eq⟩ :=
      requestScan_spec (List.replicate 1007 97) (by rw [length_eq]; decide)
    obtain ⟨front, request_eq⟩ : ∃ front,
        requestConstruct (List.replicate 1007 97) = front ++ [1] :=
      ⟨_, (List.append_assoc _ [0] [1]).symm⟩
    have front_length := length_requestConstruct (List.replicate 1007 97)
    rw [request_eq, List.length_append, length_eq, List.length_singleton] at front_length
    have at_last : front.length = 1024 := by omega
    refine ⟨fuel, final, execution, ?_⟩
    rw [stores_eq, request_eq, storedFrom_append, at_last]
    exact List.mem_append_right _ (List.mem_singleton.mpr rfl)
  · rintro ⟨fuel, final, execution, inside, -⟩
    have := length_le_of_inside execution (by decide) inside
    rw [length_eq] at this
    exact absurd this (by decide)

/-! ## The question -/

/-- The labels are those of the text, of which a last dot does not count, and fit into a name. -/
def Names (addr : List UInt8) (name : DomainName) : Prop :=
  (addr = name.text ∨ addr = name.text ++ [dot]) ∧ (encodeLabels name.labels ++ [0]).length ≤ 255

/-- What is sent behind the header is one question for the name; what is no name is reported as a
failure. -/
structure SendsQuestion (process : DnsProtocolProcess) : Prop where
  sent : ∀ calls after data, onConnect process = (calls, after) → .send (.bytes data) ∈ calls →
    ∃ name, Names process.addr name ∧
      data.drop 12 = encodeLabels name.labels ++ [0] ++ twoBytes 1 ++ twoBytes 1
  refused : (∀ name, ¬Names process.addr name) →
    onConnect process = ([.close], report failure { process with onResult := true })

/-- Of the texts of up to 1000 bytes, those that are a name of up to 253 bytes without a last dot
lead to what they should, and no others. -/
theorem sendsQuestion_iff (process : DnsProtocolProcess) (ready : process.init = true)
    (short : process.addr.length ≤ 1000) :
    SendsQuestion process ↔
      ∃ name : DomainName, process.addr = name.text ∧ process.addr.length ≤ 253 := by
  have length_le : (SocketAssistant.cStr process.addr).length ≤ process.addr.length :=
    (List.takeWhile_sublist _).length_le
  have sends := onConnect_eq ready (by omega)
  rw [if_pos (by change _ + 18 < 1024; omega)] at sends
  constructor
  · intro right
    obtain ⟨name, ⟨named, fits⟩, question⟩ :=
      right.sent _ _ _ sends (List.mem_singleton.mpr rfl)
    have name_length : (encodeLabels name.labels).length = name.text.length + 1 :=
      length_encodeLabels name
    rw [List.length_append, name_length] at fits
    rcases named with whole | trailing
    · refine ⟨name, whole, ?_⟩
      rw [whole]
      change _ + 1 + 1 ≤ 255 at fits
      omega
    · -- The last dot makes one more label of length zero.
      have plain : 0 ∉ process.addr := by
        rw [trailing, List.mem_append, not_or]
        exact ⟨zero_notMem_text name, by decide⟩
      have lengths := congrArg List.length question
      rw [SocketAssistant.cStr_of_plain plain, trailing, List.length_drop,
        length_requestConstruct] at lengths
      simp only [List.length_append, name_length] at lengths
      change name.text.length + 1 + 18 - 12 = name.text.length + 1 + 1 + 2 + 2 at lengths
      omega
  · rintro ⟨name, named, length_le⟩
    have fits : Names process.addr name := by
      refine ⟨Or.inl named, ?_⟩
      rw [List.length_append, length_encodeLabels name, ← named]
      change _ + 1 + 1 ≤ 255
      omega
    constructor
    · intro calls after data execution mem
      rw [sends] at execution
      cases execution
      obtain rfl : data = requestConstruct (SocketAssistant.cStr process.addr) := by
        simpa using mem
      refine ⟨name, fits, ?_⟩
      have plain : 0 ∉ process.addr := by
        rw [named]
        exact zero_notMem_text name
      rw [SocketAssistant.cStr_of_plain plain, named, question_eq]
      simp only [List.append_assoc]
      rfl
    · intro nameless
      exact absurd fits (nameless name)

theorem sendsQuestion_iff_address :
    SendsQuestion (resolving [97, dot, 98]) ↔
      ∃ name : DomainName, (resolving [97, dot, 98]).addr = name.text ∧
        (resolving [97, dot, 98]).addr.length ≤ 253 :=
  sendsQuestion_iff (resolving [97, dot, 98]) rfl (by decide)

/-- For `a..b` the name in the query ends behind its first label, and more than a type and a class
follow it. -/
theorem doubleDot_sent :
    (∃ data, onConnect (resolving [97, dot, dot, 98]) =
        ([.send (.bytes data)], resolving [97, dot, dot, 98]) ∧
      data.drop 12 = [1, 97, 0, 1, 98, 0, 0, 1, 0, 1]) ∧
      ¬SendsQuestion (resolving [97, dot, dot, 98]) := by
  have sends : onConnect (resolving [97, dot, dot, 98]) =
      ([.send (.bytes (requestConstruct [97, dot, dot, 98]))],
        resolving [97, dot, dot, 98]) := rfl
  have question : (requestConstruct [97, dot, dot, 98]).drop 12 =
      [1, 97, 0, 1, 98, 0, 0, 1, 0, 1] := by decide
  refine ⟨⟨_, sends, question⟩, ?_⟩
  intro right
  obtain ⟨name, -, same⟩ := right.sent _ _ _ sends (List.mem_singleton.mpr rfl)
  have encoded : encodeLabels name.labels ++ 0 :: [0, 1, 0, 1] =
      [1, 97, 0, 1, 98, 0, 0, 1, 0, 1] := by
    rw [← question, same]
    simp only [List.append_assoc]
    rfl
  have decoded := decodeLabels_encode name.labels [0, 1, 0, 1] (name.labels.length + 2) (by omega)
  rw [encoded] at decoded
  have rest_eq : [1, 98, 0, 0, 1, 0, 1] = ([0, 1, 0, 1] : List UInt8) :=
    congrArg Prod.snd (Option.some.inj decoded)
  exact absurd rest_eq (by decide)

end DnsProtocolProcess
end NetworkBase
