import NetworkBase.Transport.QueueStream
import NetworkBase.Transport.TransmissionSecurity

/-!
# The encrypted stream to the kernel

The library takes the value of its send callback for the number of bytes that are on their way and
never offers them again.  The callback reports the whole buffer as soon as the kernel took any of
it, so the stream of records stays intact only while the kernel takes nothing or everything.
-/

namespace NetworkBase
namespace TransmissionSecurity

variable {η : Type}

/-- The bytes the send callback reported as sent in an event. -/
def reportedBy : Event → List UInt8
  | .netSend buf result => buf.take result.toNat
  | _ => []

/-- Since `before`, the kernel accepted just the bytes that the library was told are sent. -/
def Intact (before after : Socket (TransmissionSecurity η)) : Prop :=
  ∃ shown, after.log = before.log ++ shown ∧ shown.flatMap acceptedBy = shown.flatMap reportedBy

/-- The kernel takes nothing of the buffer, or as many bytes as the callback reports for it. -/
def NetCall.Whole : NetCall → Prop
  | .send buf kernel => kernel.value buf.length ≤ 0 ∨ kernel.value buf.length = toInt buf.length
  | .recv _ => True

/-- The events since `before` are determined. -/
theorem intact_iff {before after : Socket (TransmissionSecurity η)} {shown : List Event}
    (log_eq : after.log = before.log ++ shown) :
    Intact before after ↔ shown.flatMap acceptedBy = shown.flatMap reportedBy := by
  constructor
  · rintro ⟨others, others_eq, same⟩
    obtain rfl : others = shown := List.append_cancel_left (others_eq.symm.trans log_eq)
    exact same
  · intro same
    exact ⟨shown, log_eq, same⟩

theorem Intact.refl (socket : Socket (TransmissionSecurity η)) : Intact socket socket :=
  ⟨[], (List.append_nil _).symm, rfl⟩

/-- After an intact part, the whole is intact exactly if the rest is. -/
theorem Intact.trans_iff {before middle after : Socket (TransmissionSecurity η)}
    (first : Intact before middle) (grown : middle.log <+: after.log) :
    Intact before after ↔ Intact middle after := by
  obtain ⟨shown, shown_eq, same⟩ := first
  obtain ⟨more, more_eq⟩ := grown
  have whole_eq : after.log = before.log ++ (shown ++ more) := by
    rw [← more_eq, shown_eq, List.append_assoc]
  rw [intact_iff whole_eq, intact_iff more_eq.symm, List.flatMap_append, List.flatMap_append, same]
  exact List.append_right_inj _

/-- An `int` never exceeds the size it was made from. -/
theorem toInt_le (size : Nat) : toInt size ≤ size := by
  rw [toInt, Int.bmod]
  split
  · omega
  · omega

/-- A write and the report about it agree exactly if their counts do. -/
theorem agree_iff {fd : Int} {buf : List UInt8} {taken reported : Int} (positive : 0 < taken)
    (taken_le : taken ≤ buf.length) (reported_le : reported ≤ buf.length) :
    [Event.kernelWrite fd buf taken, Event.netSend buf reported].flatMap acceptedBy =
        [Event.kernelWrite fd buf taken, Event.netSend buf reported].flatMap reportedBy ↔
      taken = reported := by
  simp only [acceptedBy, reportedBy, List.flatMap_cons, List.flatMap_nil, List.append_nil,
    List.nil_append, List.take_eq_take_iff]
  omega

/-- A send callback with bytes shows the kernel's count and its own. -/
theorem log_netSend {buf : List UInt8} (filled : buf ≠ []) (kernel : WriteResult)
    (socket : Socket (TransmissionSecurity η)) :
    (netCall (.send buf kernel) socket).log =
      socket.log ++ [.kernelWrite socket.fd buf (kernel.value buf.length),
        .netSend buf (if kernel.value buf.length ≤ 0 then -1 else toInt buf.length)] := by
  have sent : socket.rawSend kernel (.bytes buf) =
      (if kernel.value buf.length ≤ 0 then -1 else kernel.value buf.length,
        socket.emit (.kernelWrite socket.fd buf (kernel.value buf.length))) :=
    Socket.rawSend_eq (by simp [CharSpan.nonEmpty, filled]) kernel socket
  simp only [netCall, mbedtlsNetSend, sent]
  by_cases refused : kernel.value buf.length ≤ 0
  · simp [refused]
  · have taken : ¬kernel.value buf.length < 0 := by omega
    simp [refused, taken]

/-- A callback keeps the stream intact exactly if it reports what the kernel took. -/
theorem intact_netCall_iff (call : NetCall) (socket : Socket (TransmissionSecurity η)) :
    Intact socket (netCall call socket) ↔ call.Whole := by
  cases call with
  | recv len =>
      have shown : ∃ event, (netCall (.recv len) socket).log = socket.log ++ [event] ∧
          acceptedBy event = [] ∧ reportedBy event = [] := by
        simp only [netCall, mbedtlsNetRecv]
        split
        · exact ⟨_, rfl, rfl, rfl⟩
        · split
          · exact ⟨_, rfl, rfl, rfl⟩
          · exact ⟨_, rfl, rfl, rfl⟩
      obtain ⟨event, log_eq, accepted, reported⟩ := shown
      rw [intact_iff log_eq]
      simp [accepted, reported, NetCall.Whole]
  | send buf kernel =>
      by_cases empty : buf = []
      · subst empty
        have value_le : kernel.value 0 ≤ 0 := kernel.value_le 0
        have log_eq : (netCall (.send [] kernel) socket).log = socket.log ++ [.netSend [] 0] := rfl
        rw [intact_iff log_eq]
        simp [acceptedBy, reportedBy, NetCall.Whole, value_le]
      · have shown := log_netSend empty kernel socket
        by_cases refused : kernel.value buf.length ≤ 0
        · have nothing : (kernel.value buf.length).toNat = 0 := Int.toNat_of_nonpos refused
          rw [if_pos refused] at shown
          rw [intact_iff shown]
          simp [acceptedBy, reportedBy, NetCall.Whole, refused, nothing]
        · rw [if_neg refused] at shown
          rw [intact_iff shown, NetCall.Whole, or_iff_right refused]
          exact agree_iff (not_le.mp refused) (kernel.value_le _) (toInt_le _)

theorem log_netCalls (calls : List NetCall) (socket : Socket (TransmissionSecurity η)) :
    socket.log <+: (netCalls calls socket).log := by
  obtain ⟨shown, log_eq, -⟩ := (netCalls_within calls socket).log_extends
  exact ⟨shown, log_eq.symm⟩

/-- Whatever callbacks the library calls, the stream is intact all the time exactly if each send
callback meets a kernel that takes nothing or everything. -/
theorem intact_iff_whole (calls : List NetCall) (before : Socket (TransmissionSecurity η)) :
    (∀ earlier, earlier <+: calls → Intact before (netCalls earlier before)) ↔
      ∀ call ∈ calls, call.Whole := by
  induction calls generalizing before with
  | nil =>
      simp only [List.prefix_nil, forall_eq, List.not_mem_nil, false_implies, implies_true,
        iff_true]
      exact Intact.refl before
  | cons call calls ih =>
      have later (earlier : List NetCall) :
          netCalls (call :: earlier) before = netCalls earlier (netCall call before) := rfl
      rw [List.forall_mem_cons, ← intact_netCall_iff call before, ← ih (netCall call before)]
      constructor
      · intro intact
        have first : Intact before (netCall call before) :=
          intact [call] ((List.prefix_cons_inj call).mpr List.nil_prefix)
        refine ⟨first, fun earlier grown => ?_⟩
        have whole := intact (call :: earlier) ((List.prefix_cons_inj call).mpr grown)
        rw [later] at whole
        exact (first.trans_iff (log_netCalls earlier _)).mp whole
      · rintro ⟨first, rest⟩ earlier grown
        cases earlier with
        | nil => exact Intact.refl before
        | cons head earlier =>
            obtain ⟨rfl, shorter⟩ := List.cons_prefix_cons.mp grown
            rw [later, first.trans_iff (log_netCalls earlier _)]
            exact rest earlier shorter

/-- The kernel takes one byte of the first record and everything of the second. -/
def shortWrite : List NetCall := [.send [1, 2, 3] (.accepts 1), .send [4] (.accepts 9)]

/-- After a short write the kernel has the first and the fourth byte, but not those between. -/
theorem short_write_skips :
    ((netCalls shortWrite (construct ())).log.flatMap acceptedBy = [1, 4] ∧
      (netCalls shortWrite (construct ())).log.flatMap reportedBy = [1, 2, 3, 4]) ∧
    ¬Intact (construct ()) (netCalls shortWrite (construct ())) := by
  have accepted : (netCalls shortWrite (construct ())).log.flatMap acceptedBy = [1, 4] := by decide
  have reported : (netCalls shortWrite (construct ())).log.flatMap reportedBy = [1, 2, 3, 4] := by
    decide
  refine ⟨⟨accepted, reported⟩, ?_⟩
  rw [intact_iff (List.nil_append _).symm, accepted, reported]
  decide

end TransmissionSecurity
end NetworkBase
