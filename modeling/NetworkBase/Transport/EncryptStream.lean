import NetworkBase.Transport.SendStream
import NetworkBase.Transport.TransmissionSecurity

/-!
# The outgoing queues of the encrypted transport

`Send` stages in `source_send_` what the library is to encrypt, and `OnWrite` sends the contents of
`tls_send_` as they are.  Bytes leave the first queue only into the library and the second only
into the kernel.
-/

namespace NetworkBase
namespace TransmissionSecurity

open Transmission (rawSend_counts suppliedBy suppliedBy_send)

variable {η : Type}

/-- The bytes the library took to encrypt in an event; a count beyond what it was given is none. -/
def takenBy : Event → List UInt8
  | .sslWrite buf result => buf.take (AutoGrowBuffer.popCount result buf.length)
  | _ => []

theorem popCount_of_nonpos {value : Int} (nonpos : value ≤ 0) (offered : Nat) :
    AutoGrowBuffer.popCount value offered = 0 := by
  rw [AutoGrowBuffer.popCount]
  split
  · rfl
  · omega

/-- The outgoing plaintext: `Send` supplies it and the library takes it. -/
def sourceView : StreamView where
  outOf := takenBy
  inpOf := suppliedBy
  plain event plain := by
    cases event with
    | assigned | realConnect | opened => exact ⟨rfl, rfl⟩
    | _ => exact absurd plain id

/-- Since `base`, what left `source_send_` went into the library, and what left `tls_send_` was
accepted in some of the writes. -/
structure Queued (base : List Event) (source raw : List UInt8)
    (socket : Socket (TransmissionSecurity η)) : Prop where
  staged : StreamStaged sourceView TransmissionSecurity.sourceSend base source socket
  written : ∃ shown writes : List Event, socket.log = base ++ shown ∧ writes.Sublist shown ∧
    writes.flatMap acceptedBy ++ socket.sub.tlsSend.unread = raw

section Steps

variable {base : List Event} {source raw : List UInt8}
  {before after : Socket (TransmissionSecurity η)} {result : Int}

theorem Queued.start (socket : Socket (TransmissionSecurity η)) :
    Queued socket.log socket.sub.sourceSend.unread socket.sub.tlsSend.unread socket :=
  ⟨.start socket, [], [], (List.append_nil _).symm, .slnil, rfl⟩

/-- A step that leaves both queues alone. -/
theorem Queued.extend (queued : Queued base source raw before)
    (source_eq : after.sub.sourceSend = before.sub.sourceSend)
    (raw_eq : after.sub.tlsSend = before.sub.tlsSend) {shown : List Event}
    (log_eq : after.log = before.log ++ shown)
    (silent : ∀ event ∈ shown, sourceView.Silent event) : Queued base source raw after := by
  obtain ⟨earlier, writes, earlier_eq, among, conserved⟩ := queued.written
  refine ⟨queued.staged.extend source_eq log_eq silent, earlier ++ shown, writes, ?_, ?_, ?_⟩
  · rw [log_eq, earlier_eq, List.append_assoc]
  · exact among.trans (List.sublist_append_left _ _)
  · rw [raw_eq]
    exact conserved

/-- A step that leaves both queues and the log alone. -/
theorem Queued.congr (queued : Queued base source raw before)
    (source_eq : after.sub.sourceSend = before.sub.sourceSend)
    (raw_eq : after.sub.tlsSend = before.sub.tlsSend) (log_eq : after.log = before.log) :
    Queued base source raw after :=
  queued.extend source_eq raw_eq (log_eq.trans (List.append_nil _).symm) (List.forall_mem_nil _)

theorem Queued.emit (queued : Queued base source raw before) {event : Event}
    (silent : sourceView.Silent event) : Queued base source raw (before.emit event) :=
  queued.extend rfl rfl rfl (List.forall_mem_singleton.mpr silent)

theorem Queued.bare (queued : Queued base source raw before)
    (alone : Socket.Bare before after) : Queued base source raw after := by
  obtain ⟨sub_eq, shown, log_eq, plain⟩ := alone
  exact queued.extend (by rw [sub_eq]) (by rw [sub_eq]) log_eq fun event mem =>
    sourceView.plain event (plain event mem)

/-- The library takes a front part of `source_send_`. -/
theorem Queued.taken {sourceSend : SoundBuffer} (queued : Queued base source raw before)
    (result : Int)
    (unread_eq : sourceSend.unread = before.sub.sourceSend.unread.drop
      (AutoGrowBuffer.popCount result before.sub.sourceSend.unread.length)) :
    Queued base source raw (update (fun sub => { sub with sourceSend })
      (before.emit (.sslWrite before.sub.sourceSend.unread result))) := by
  obtain ⟨earlier, writes, earlier_eq, among, conserved⟩ := queued.written
  have popped := queued.staged.pop (.sslWrite before.sub.sourceSend.unread result) rfl rfl
  rw [← unread_eq] at popped
  refine ⟨popped, earlier ++ [.sslWrite before.sub.sourceSend.unread result], writes, ?_,
    among.trans (List.sublist_append_left _ _), conserved⟩
  rw [← List.append_assoc, ← earlier_eq]
  rfl

/-- The kernel accepts a front part of `tls_send_`. -/
theorem Queued.sent {tlsSend : SoundBuffer} (queued : Queued base source raw before)
    (result : Int) (unread_eq : tlsSend.unread = before.sub.tlsSend.unread.drop result.toNat) :
    Queued base source raw (update (fun sub => { sub with tlsSend })
      (before.emit (.kernelWrite before.fd before.sub.tlsSend.unread result))) := by
  obtain ⟨earlier, writes, earlier_eq, among, conserved⟩ := queued.written
  have write : sourceView.Silent (.kernelWrite before.fd before.sub.tlsSend.unread result) :=
    ⟨rfl, rfl⟩
  refine ⟨(queued.emit write).staged,
    earlier ++ [.kernelWrite before.fd before.sub.tlsSend.unread result],
    writes ++ [.kernelWrite before.fd before.sub.tlsSend.unread result], ?_,
    among.append (List.Sublist.refl _), ?_⟩
  · rw [← List.append_assoc, ← earlier_eq]
    rfl
  · have accepted : acceptedBy (.kernelWrite before.fd before.sub.tlsSend.unread result) =
        before.sub.tlsSend.unread.take result.toNat := rfl
    change _ ++ tlsSend.unread = raw
    rw [List.flatMap_append, List.flatMap_singleton, accepted, unread_eq, List.append_assoc,
      List.take_append_drop, conserved]

/-- The callbacks of the library leave both queues alone. -/
theorem queued_netCall (call : NetCall) (queued : Queued base source raw before) :
    Queued base source raw (netCall call before) := by
  cases call with
  | send buf kernel =>
      have written : Queued base source raw (before.rawSend kernel (.bytes buf)).2 := by
        rcases Socket.rawSend_cases kernel (.bytes buf) before with same | shown
        · rw [same]
          exact queued
        · rw [shown]
          exact queued.emit ⟨rfl, rfl⟩
      simp only [netCall, mbedtlsNetSend]
      split
      · exact written.emit ⟨rfl, rfl⟩
      · exact written.emit ⟨rfl, rfl⟩
  | recv len =>
      simp only [netCall, mbedtlsNetRecv]
      split
      · exact queued.emit ⟨rfl, rfl⟩
      · split
        · exact queued.extend rfl rfl rfl (List.forall_mem_singleton.mpr ⟨rfl, rfl⟩)
        · exact queued.extend rfl rfl rfl (List.forall_mem_singleton.mpr ⟨rfl, rfl⟩)

theorem queued_sslHandshake (call : SslCall) (queued : Queued base source raw before) :
    Queued base source raw (sslHandshake call before).2 :=
  (netCalls_keeps (Queued base source raw) (fun first _ => queued_netCall first) call.net
    queued).emit ⟨rfl, rfl⟩

theorem queued_decrypt {reads : List SslRead} {flagged : Bool}
    (queued : Queued base source raw before)
    (execution : decrypt reads before = some (flagged, after)) : Queued base source raw after := by
  refine decrypt_keeps (Queued base source raw) (fun first _ => queued_netCall first) ?_
    execution queued
  intro bytes sourceRead socket fetched
  have shown : Queued base source raw (socket.emit (.sslRead bytes)) := fetched.emit ⟨rfl, rfl⟩
  exact shown.congr rfl rfl rfl

/-- `Send` appends what it takes over. -/
theorem queued_send {data : CharSpan} (queued : Queued base source raw before)
    (execution : send data before = some (result, after)) : Queued base source raw after := by
  rw [send] at execution
  split at execution
  · cases execution
    exact queued.emit ⟨rfl, rfl⟩
  · rw [Option.bind_eq_bind, Option.bind_eq_some_iff] at execution
    obtain ⟨⟨value, sourceSend⟩, added, execution⟩ := execution
    obtain ⟨rfl, unread_eq⟩ := SoundBuffer.addTailData_of_some added
    cases execution
    obtain ⟨earlier, writes, earlier_eq, among, conserved⟩ := queued.written
    refine ⟨?_, earlier ++ [.send data (AutoGrowBuffer.addResult data)], writes, ?_, ?_, conserved⟩
    · have pushed := queued.staged.push (.send data (AutoGrowBuffer.addResult data)) rfl
      have supplied : sourceView.inpOf (.send data (AutoGrowBuffer.addResult data)) =
          AutoGrowBuffer.added data := suppliedBy_send data
      rw [supplied, ← unread_eq] at pushed
      exact pushed
    · rw [Socket.log_emit, ← List.append_assoc, ← earlier_eq]
      rfl
    · exact among.trans (List.sublist_append_left _ _)

/-- A callback of the handler: a silent event, its next state and its calls. -/
theorem queued_told {calls : List PublicCall} {state : η} {event : Event}
    (queued : Queued base source raw before) (silent : sourceView.Silent event)
    (execution : Socket.callBack send calls
      (update (fun sub => { sub with handler := state }) (before.emit event)) = some after) :
    Queued base source raw after := by
  have next : Queued base source raw
      (update (fun sub => { sub with handler := state }) (before.emit event)) :=
    (queued.emit silent).congr rfl rfl rfl
  exact Socket.callBack_keeps (fun _ _ => Queued.bare) (fun _ _ _ _ => queued_send) execution next

theorem queued_onRead {handler : SocketHandler η} {input : TlsInput} {chunk : Chunk}
    {finish : Bool} (queued : Queued base source raw before)
    (execution : onRead handler input chunk finish before = some (result, after)) :
    Queued base source raw after := by
  have stored (tlsRead : SoundBuffer) :
      Queued base source raw (update (fun sub => { sub with tlsRead }) before) :=
    queued.congr rfl rfl rfl
  have shaken := fun tlsRead => queued_sslHandshake input.handshake (stored tlsRead)
  cases readEnds_of_onRead execution with
  | unready => exact queued
  | stored _ tlsRead => exact stored tlsRead
  | shaking _ tlsRead => exact shaken tlsRead
  | failed _ tlsRead _ _ _ looped => exact queued_decrypt (shaken tlsRead) looped
  | offered _ tlsRead _ _ decrypted looped value next calls sourceRead =>
      have told := queued_told (queued_decrypt (shaken tlsRead) looped) ⟨rfl, rfl⟩ calls
      exact told.congr rfl rfl rfl

/-- What `OnWrite` reports of the library's answer. -/
theorem value_of_sourceSendBufferPopData {write : SslCall} {buf : List UInt8} {value : Int}
    (answer : sourceSendBufferPopData write buf before = some (value, after)) :
    value = if write.result ≤ 0 then (if ¬wants write.result then -1 else 0)
      else write.result := by
  simp only [sourceSendBufferPopData] at answer
  split at answer
  · rename_i nonpos
    rw [if_pos nonpos]
    split at answer
    · rename_i failed
      rw [if_pos failed]
      exact (Prod.mk.inj (Option.some.inj answer)).1.symm
    · rename_i waits
      rw [if_neg waits]
      exact (Prod.mk.inj (Option.some.inj answer)).1.symm
  · rename_i taken
    rw [if_neg taken]
    exact (Prod.mk.inj (Option.some.inj answer)).1.symm

/-- The queue drops just what the library took. -/
theorem popCount_sourceSendBufferPopData {write : SslCall} {buf : List UInt8} {value : Int}
    (answer : sourceSendBufferPopData write buf before = some (value, after)) (offered : Nat) :
    AutoGrowBuffer.popCount value offered = AutoGrowBuffer.popCount write.result offered := by
  have value_eq := value_of_sourceSendBufferPopData answer
  by_cases nonpos : write.result ≤ 0
  · have none_taken : value ≤ 0 := by
      rw [value_eq, if_pos nonpos]
      split
      · decide
      · exact le_rfl
    rw [popCount_of_nonpos none_taken, popCount_of_nonpos nonpos]
  · rw [value_eq, if_neg nonpos]

/-- The library takes the front of `source_send_`. -/
theorem queued_encryptQueued {write : SslCall} (queued : Queued base source raw before)
    (execution : encryptQueued write before = some (result, after)) :
    Queued base source raw after := by
  rw [encryptQueued] at execution
  split at execution
  · rw [Option.bind_eq_bind, Option.bind_eq_some_iff] at execution
    obtain ⟨⟨popped, sourceSend, next⟩, pop, execution⟩ := execution
    obtain ⟨value, answer, consumed⟩ := SoundBuffer.popHeadData_eq_some_iff.mp pop
    cases execution
    obtain ⟨-, unread_eq⟩ := SoundBuffer.consume_spec value before.sub.sourceSend
    rw [consumed, popCount_sourceSendBufferPopData answer] at unread_eq
    have called : Queued base source raw (netCalls write.net before) :=
      netCalls_keeps (Queued base source raw) (fun first _ => queued_netCall first) write.net queued
    obtain ⟨tlsRead, readTempLen, sub_eq⟩ := sub_netCalls write.net before
    have same : (netCalls write.net before).sub.sourceSend = before.sub.sourceSend := by rw [sub_eq]
    rw [← same] at unread_eq
    have taken := called.taken write.result unread_eq
    rw [same] at taken
    rw [next_of_sourceSendBufferPopData answer]
    exact taken
  · cases execution
    exact queued

/-- The kernel accepts the front of `tls_send_`. -/
theorem queued_sendQueued {kernel : WriteResult} (queued : Queued base source raw before)
    (execution : sendQueued kernel before = some (result, after)) :
    Queued base source raw after := by
  rw [sendQueued, SoundBuffer.getSize_eq] at execution
  split at execution
  · rename_i waiting
    rw [Option.bind_eq_bind, Option.bind_eq_some_iff] at execution
    obtain ⟨⟨popped, tlsSend, next⟩, pop, execution⟩ := execution
    obtain ⟨popLen, answer, consumed⟩ := SoundBuffer.popHeadData_eq_some_iff.mp pop
    cases execution
    have offer_ne : before.sub.tlsSend.unread ≠ [] :=
      fun empty => waiting (List.length_eq_zero_iff.mpr empty)
    obtain ⟨-, unread_eq⟩ := SoundBuffer.consume_spec popLen before.sub.tlsSend
    obtain ⟨socket_eq, count_eq⟩ := rawSend_counts kernel _ offer_ne before
    rw [Option.some.inj answer] at socket_eq count_eq
    rw [consumed, count_eq] at unread_eq
    have sent := queued.sent _ unread_eq
    rw [← socket_eq] at sent
    exact sent
  · cases execution
    exact queued

/-- Every part of `OnWrite` keeps the queues. -/
theorem queued_onWrite {handler : SocketHandler η} {input : TlsInput}
    (queued : Queued base source raw before)
    (execution : onWrite handler input before = some (result, after)) :
    Queued base source raw after := by
  have shaken := queued_sslHandshake input.handshake queued
  refine onWrite_keeps queued shaken ?_ ?_ ?_ execution
  · intro value next _ first
    exact queued_encryptQueued shaken first
  · intro value middle next taken second
    exact queued_sendQueued taken second
  · intro middle next written calls
    exact queued_told written ⟨rfl, rfl⟩ calls

end Steps

/-- The engine's reads and writes keep the queues. -/
theorem kept_queued (handler : SocketHandler η) (base : List Event) (source raw : List UInt8) :
    Socket.Kept (socketClass handler) (Queued base source raw) where
  disconnect _ queued := queued.bare (.assign .disconnected _)
  barren _ _ queued _ := queued.emit ⟨rfl, rfl⟩
  onRead _ _ _ _ _ _ queued execution := queued_onRead (queued.emit ⟨rfl, rfl⟩) execution
  onWrite _ _ _ _ queued execution := queued_onWrite queued execution
  report _ _ queued _ execution :=
    queued_told (queued.bare (.assign .connected _)) ⟨rfl, rfl⟩ execution

/-- Every call keeps the queues. -/
theorem queued_perform {handler : SocketHandler η} {call : Socket.Call TlsInput}
    {before after : Socket (TransmissionSecurity η)}
    (execution : Socket.perform (socketClass handler) call before = some after) :
    Queued before.log before.sub.sourceSend.unread before.sub.tlsSend.unread after :=
  Socket.perform_keeps (kept_queued handler _ _ _) (fun _ _ => Queued.bare)
    (fun _ _ _ _ => queued_send) execution (.start before)

end TransmissionSecurity
end NetworkBase
