import NetworkBase.Transport.EncryptStream
import NetworkBase.Transport.PlaintextStream
import NetworkBase.Transport.RecordStream
import NetworkBase.Transport.WouldBlock

/-!
# Encrypted calls that would block

The send callback reports a `write` that would block to the library like any other failure, and
the library passes the failure on.  So the encrypted transport, too, gives a connection up exactly
when one of its writes would block.
-/

namespace NetworkBase
namespace TransmissionSecurity

open Socket (Passed Answers Apart passed_callBack)
open Transmission (suppliedBy)

variable {η : Type}

/-! ## A library without failures of its own -/

/-- The answer of the kernel, if it is asked, is a success or that of a call that would block. -/
def NetCall.Transient : NetCall → Prop
  | .send _ kernel => kernel.Transient
  | .recv _ => True

/-- The send callback fails at the kernel. -/
def NetCall.Refused : NetCall → Prop
  | .send buf kernel => buf ≠ [] ∧ kernel.value buf.length < 0
  | .recv _ => False

/-- Some send callback fails at the kernel. -/
def Refused (calls : List NetCall) : Prop := ∃ call ∈ calls, call.Refused

/-- The library passes on the value of a callback that failed.  Otherwise it waits for its
callbacks or is done. -/
structure SslCall.Fair (done : Int → Prop) (call : SslCall) : Prop where
  transient : ∀ net ∈ call.net, net.Transient
  refused : Refused call.net → call.result = -1
  served : ¬Refused call.net → wants call.result = true ∨ done call.result

/-- The same of `mbedtls_ssl_read`. -/
structure SslRead.Fair (read : SslRead) : Prop where
  transient : ∀ net ∈ read.net, net.Transient
  refused : Refused read.net → read.answer = .code ⟨-1, by decide⟩
  served : ¬Refused read.net → ∀ ret, read.answer = .code ret → wants ret.val = true

/-- Nothing fails but calls of the kernel that would block. -/
structure TlsInput.Fair (input : TlsInput) : Prop where
  handshake : input.handshake.Fair (· = 0)
  reads : ∀ read ∈ input.reads, read.Fair
  write : input.write.Fair (0 < ·)
  rawWrite : input.rawWrite.Transient

/-- The encrypted transport is ready once it was set up. -/
def holder (handler : SocketHandler η) : Holder (TransmissionSecurity η) η where
  handler
  state := TransmissionSecurity.handler
  ready sub := sub.init = true

section Methods

variable {handler : SocketHandler η} {before after : Socket (TransmissionSecurity η)}
  {result : Int}

theorem status_netCall (call : NetCall) (socket : Socket (TransmissionSecurity η)) :
    (netCall call socket).status = socket.status := by
  cases call with
  | send buf kernel =>
      have written : (socket.rawSend kernel (.bytes buf)).2.status = socket.status := by
        rcases Socket.rawSend_cases kernel (.bytes buf) socket with same | shown
        · rw [same]
        · rw [shown, Socket.status_emit]
      simp only [netCall, mbedtlsNetSend]
      split
      · exact written
      · exact written
  | recv len =>
      simp only [netCall, mbedtlsNetRecv]
      split
      · rfl
      · split
        · rfl
        · rfl

/-- A callback shows a failing `write` exactly if it fails at the kernel. -/
theorem passed_netCall (handler : SocketHandler η) (call : NetCall)
    (socket : Socket (TransmissionSecurity η)) :
    ∃ shown, Passed (holder handler) socket (netCall call socket) shown ∧
      (Blocked shown ↔ call.Refused) := by
  obtain ⟨tlsRead, readTempLen, sub_eq⟩ := sub_netCall call socket
  have of_log {shown : List Event} (log_eq : (netCall call socket).log = socket.log ++ shown)
      (unheard : ∀ event ∈ shown, event.Unheard) :
      Passed (holder handler) socket (netCall call socket) shown := by
    refine .of_unheard log_eq unheard ?_ ?_ ?_
    · rw [sub_eq]
      rfl
    · rw [sub_eq]
      exact id
    · rw [status_netCall]
      exact id
  cases call with
  | send buf kernel =>
      by_cases empty : buf = []
      · subst empty
        refine ⟨[.netSend [] 0], of_log rfl (List.forall_mem_singleton.mpr trivial), ?_⟩
        exact iff_of_false (by simp [Event.Refused]) fun refused => refused.1 rfl
      · refine ⟨_, of_log (log_netSend empty kernel socket) ?_, ?_⟩
        · exact List.forall_mem_cons.mpr ⟨trivial, List.forall_mem_singleton.mpr trivial⟩
        · simp [Event.Refused, NetCall.Refused, empty]
  | recv len =>
      have shown : ∃ event : Event, (netCall (.recv len) socket).log = socket.log ++ [event] ∧
          event.Mute := by
        simp only [netCall, mbedtlsNetRecv]
        split
        · exact ⟨_, rfl, trivial, id⟩
        · split
          · exact ⟨_, rfl, trivial, id⟩
          · exact ⟨_, rfl, trivial, id⟩
      obtain ⟨event, log_eq, mute⟩ := shown
      refine ⟨_, of_log log_eq (List.forall_mem_singleton.mpr mute.unheard), ?_⟩
      exact iff_of_false (by simpa using mute.accepted) id

/-- The same of all callbacks of a call. -/
theorem passed_netCalls (handler : SocketHandler η) (calls : List NetCall)
    (socket : Socket (TransmissionSecurity η)) :
    ∃ shown, Passed (holder handler) socket (netCalls calls socket) shown ∧
      (Blocked shown ↔ Refused calls) := by
  induction calls generalizing socket with
  | nil => exact ⟨[], .refl socket, iff_of_false blocked_nil (by simp [Refused])⟩
  | cons call calls ih =>
      obtain ⟨first, passed, first_iff⟩ := passed_netCall handler call socket
      obtain ⟨rest, later, rest_iff⟩ := ih (netCall call socket)
      refine ⟨first ++ rest, passed.trans later, ?_⟩
      rw [blocked_append, first_iff, rest_iff]
      simp [Refused]

/-- A handshake shows a failing `write` exactly if one of its callbacks fails. -/
theorem passed_sslHandshake (handler : SocketHandler η) (call : SslCall)
    (socket : Socket (TransmissionSecurity η)) :
    ∃ shown, Passed (holder handler) socket (sslHandshake call socket).2 shown ∧
      (Blocked shown ↔ Refused call.net) := by
  obtain ⟨shown, passed, verdict⟩ := passed_netCalls handler call.net socket
  have mute : Event.Mute (.sslHandshake call.result) := ⟨trivial, id⟩
  refine ⟨shown ++ [.sslHandshake call.result], passed.trans (.emit mute.unheard _), ?_⟩
  rw [blocked_append, verdict, or_iff_left]
  exact not_blocked_of_mute (List.forall_mem_singleton.mpr mute)

/-! ## The methods -/

theorem apart_send {data : CharSpan} (execution : send data before = some (result, after)) :
    Apart (holder handler) before after ∧ after.status = before.status := by
  rw [send] at execution
  split at execution
  · cases execution
    exact ⟨⟨⟨_, rfl, List.forall_mem_singleton.mpr (.send data (-1))⟩, rfl, id⟩, rfl⟩
  · rw [Option.bind_eq_bind, Option.bind_eq_some_iff] at execution
    obtain ⟨⟨value, sourceSend⟩, -, execution⟩ := execution
    cases execution
    exact ⟨⟨⟨_, rfl, List.forall_mem_singleton.mpr (.send data result)⟩, rfl, id⟩, rfl⟩

/-- Members other than the handler. -/
theorem passed_members {change : TransmissionSecurity η → TransmissionSecurity η}
    (same : (change before.sub).handler = before.sub.handler)
    (ready : (change before.sub).init = before.sub.init) :
    Passed (holder handler) before (update change before) [] :=
  .of_unheard (List.append_nil _).symm (List.forall_mem_nil _) same ready.trans id

theorem passed_told {event : Event} {calls : List PublicCall} {state : η}
    (execution : Socket.callBack send calls
      (update (fun sub => { sub with handler := state }) (before.emit event)) = some after)
    (followed : state = handler.follow before.sub.handler event)
    (stays : handler.Content before.sub.handler event → .close ∉ calls) :
    ∃ rest, Passed (holder handler) before after (event :: rest) ∧ ¬Blocked rest := by
  have log_eq : (update (fun sub => { sub with handler := state }) (before.emit event)).log =
      before.log ++ [event] := rfl
  exact passed_callBack (fun _ _ _ _ => apart_send) log_eq rfl followed id stays execution

theorem passed_onConnect (execution : onConnect handler before = some after) :
    ∃ shown, Passed (holder handler) before after shown ∧ ¬Blocked shown := by
  have calls : Socket.callBack send (handler.onConnect before.sub.handler).1
      (update (fun sub => { sub with handler := (handler.onConnect before.sub.handler).2 })
        (before.emit .onConnect)) = some after := execution
  obtain ⟨rest, passed, free⟩ := passed_told calls rfl id
  exact ⟨_, passed, by simpa [Event.Refused] using free⟩

/-- An incomplete handshake fails exactly if a callback failed. -/
theorem answers_incomplete (handler : SocketHandler η) {call : SslCall} (fair : call.Fair (· = 0))
    (incomplete : call.result ≠ 0) (len : Nat) (socket : Socket (TransmissionSecurity η)) :
    Answers (holder handler) socket (if ¬wants call.result then -1 else (len : Int))
      (sslHandshake call socket).2 := by
  obtain ⟨shown, passed, verdict⟩ := passed_sslHandshake handler call socket
  refine ⟨shown, passed, fun _ => ?_⟩
  rw [verdict]
  by_cases refused : Refused call.net
  · rw [fair.refused refused, if_pos (by decide)]
    exact iff_of_true (by decide) refused
  · have waits := (fair.served refused).resolve_right incomplete
    rw [if_neg (not_not.mpr waits)]
    exact iff_of_false (by omega) refused

/-- A complete handshake had no failing callback. -/
theorem passed_complete (handler : SocketHandler η) {call : SslCall} (fair : call.Fair (· = 0))
    (complete : call.result = 0) (socket : Socket (TransmissionSecurity η)) :
    ∃ shown, Passed (holder handler) socket (sslHandshake call socket).2 shown ∧
      ¬Blocked shown := by
  obtain ⟨shown, passed, verdict⟩ := passed_sslHandshake handler call socket
  refine ⟨_, passed, fun blocked => ?_⟩
  have failed := fair.refused (verdict.mp blocked)
  rw [complete] at failed
  cases failed

/-- The decrypting loop is left otherwise than through its flag exactly if a callback failed. -/
theorem passed_decrypt (handler : SocketHandler η) {reads : List SslRead} {flagged : Bool}
    (fair : ∀ read ∈ reads, read.Fair)
    (execution : decrypt reads before = some (flagged, after)) :
    ∃ shown, Passed (holder handler) before after shown ∧ (flagged = false ↔ Blocked shown) := by
  induction reads generalizing before with
  | nil =>
      cases execution
      exact ⟨[], .refl after, iff_of_false nofun blocked_nil⟩
  | cons read reads ih =>
      obtain ⟨first, later⟩ := List.forall_mem_cons.mp fair
      obtain ⟨shown, passed, verdict⟩ := passed_netCalls handler read.net before
      rw [decrypt] at execution
      cases answer : read.answer with
      | code ret =>
          simp only [answer] at execution
          cases execution
          refine ⟨shown, passed, ?_⟩
          rw [verdict]
          by_cases refused : Refused read.net
          · obtain rfl := SslAnswer.code.inj (answer.symm.trans (first.refused refused))
            exact iff_of_true (by decide) refused
          · rw [first.served refused ret answer]
            exact iff_of_false nofun refused
      | plaintext bytes =>
          have served : ¬Blocked shown := by
            rw [verdict]
            intro refused
            rw [first.refused refused] at answer
            cases answer
          simp only [answer, Option.bind_eq_bind, Option.bind_eq_some_iff] at execution
          obtain ⟨⟨added, sourceRead⟩, stored, execution⟩ := execution
          obtain ⟨rfl, -⟩ := SoundBuffer.addTailData_of_some stored
          simp only [if_neg (addResult_plaintext_nonneg bytes)] at execution
          obtain ⟨rest, others, rest_iff⟩ := ih later execution
          have mute : Event.Mute (.sslRead bytes.val) := ⟨trivial, id⟩
          have staged : Passed (holder handler) (netCalls read.net before)
              (update (fun sub => { sub with sourceRead })
                ((netCalls read.net before).emit (.sslRead bytes.val)))
              ([.sslRead bytes.val] ++ []) :=
            Passed.trans (.emit mute.unheard _) (passed_members rfl rfl)
          refine ⟨_, (passed.trans staged).trans others, ?_⟩
          rw [rest_iff, blocked_append, blocked_append]
          simp [served, Event.Refused]

/-- The offer of what is staged fails only by the handler. -/
theorem answers_offer {popped : Int} {sourceRead : SoundBuffer}
    (pop : before.sub.sourceRead.popHeadData (sourceReadBufferPopData handler) before =
      some (popped, sourceRead, after)) (len : Nat) :
    Answers (holder handler) before (if popped < 0 then -1 else (len : Int))
      (update (fun sub => { sub with sourceRead }) after) := by
  obtain ⟨value, answer, consumed⟩ := SoundBuffer.popHeadData_eq_some_iff.mp pop
  obtain ⟨-, calls⟩ := sourceReadBufferPopData_eq_some.mp answer
  obtain ⟨rest, passed, free⟩ := passed_told calls rfl fun content => content.2
  have offered :
      Answers (holder handler) before (if popped < 0 then -1 else (len : Int)) after := by
    refine passed.answers (by simpa [Event.Refused] using free) fun unfailing => ?_
    obtain ⟨⟨nonneg, value_le⟩, -⟩ := unfailing.1
    have popped_eq := (SoundBuffer.consume_spec value before.sub.sourceRead).1
    rw [consumed, AutoGrowBuffer.popResult, if_neg (by omega)] at popped_eq
    rw [if_neg (by simp only at popped_eq; omega)]
    exact Int.natCast_nonneg len
  exact offered.then (passed_members rfl rfl)

/-- `OnRead` fails exactly if a callback of the library failed at the kernel. -/
theorem answers_onRead {input : TlsInput} {chunk : Chunk} {finish : Bool} (fair : input.Fair)
    (ready : before.sub.init = true)
    (execution : onRead handler input chunk finish before = some (result, after)) :
    Answers (holder handler) before result after := by
  rw [onRead, if_neg (not_not.mpr ready), Option.bind_eq_bind, Option.bind_eq_some_iff]
    at execution
  obtain ⟨⟨added, tlsRead⟩, push, execution⟩ := execution
  obtain ⟨rfl, -⟩ := SoundBuffer.addTailData_of_some push
  have stored : Passed (holder handler) before (update (fun sub => { sub with tlsRead }) before)
      [] := passed_members rfl rfl
  refine stored.continue (fun _ => blocked_nil) ?_
  simp only [if_neg (Transmission.addResult_chunk_nonneg chunk)] at execution
  generalize update (fun sub => { sub with tlsRead }) before = middle at execution ⊢
  split at execution
  · cases execution
    exact (Passed.refl after).answers blocked_nil fun _ => Int.natCast_nonneg _
  have called : (sslHandshake input.handshake middle).1 = input.handshake.result := rfl
  simp only [called] at execution
  by_cases complete : input.handshake.result = 0
  · obtain ⟨shown, shaken, free⟩ := passed_complete handler fair.handshake complete middle
    refine shaken.continue (fun _ => free) ?_
    simp only [complete, ne_eq, not_true, if_false, Option.bind_eq_bind,
      Option.bind_eq_some_iff] at execution
    obtain ⟨⟨flagged, decrypted⟩, looped, execution⟩ := execution
    obtain ⟨others, passed, verdict⟩ := passed_decrypt handler fair.reads looped
    cases flagged with
    | false =>
        cases execution
        exact ⟨others, passed, fun _ => iff_of_true (by decide) (verdict.mp rfl)⟩
    | true =>
        refine passed.continue (fun _ blocked => absurd (verdict.mpr blocked) (by decide)) ?_
        simp only [not_true, if_false, Option.bind_eq_some_iff] at execution
        obtain ⟨⟨popped, sourceRead, next⟩, pop, execution⟩ := execution
        exact (answers_offer pop chunk.val.length).of_ite execution
  · have incomplete := answers_incomplete handler fair.handshake complete chunk.val.length
      middle
    rw [if_pos complete] at execution
    exact incomplete.of_ite execution

/-- Encrypting fails exactly if a callback failed at the kernel. -/
theorem answers_encryptQueued (handler : SocketHandler η) {write : SslCall}
    (fair : write.Fair (0 < ·)) (execution : encryptQueued write before = some (result, after)) :
    Answers (holder handler) before result after := by
  rw [encryptQueued] at execution
  split at execution
  · rw [Option.bind_eq_bind, Option.bind_eq_some_iff] at execution
    obtain ⟨⟨popped, sourceSend, next⟩, pop, execution⟩ := execution
    obtain ⟨value, answer, consumed⟩ := SoundBuffer.popHeadData_eq_some_iff.mp pop
    cases execution
    have result_eq :
        result = AutoGrowBuffer.popResult value before.sub.sourceSend.unread.length := by
      rw [← (SoundBuffer.consume_spec value before.sub.sourceSend).1, consumed]
    obtain ⟨shown, passed, verdict⟩ := passed_netCalls handler write.net before
    have mute : Event.Mute (.sslWrite before.sub.sourceSend.unread write.result) := ⟨trivial, id⟩
    have called := passed.trans (.emit mute.unheard _)
    rw [← next_of_sourceSendBufferPopData answer] at called
    have encrypted : Answers (holder handler) before result next := by
      refine ⟨_, called, fun unfailing => ?_⟩
      rw [blocked_append, verdict, or_iff_left
        (not_blocked_of_mute (List.forall_mem_singleton.mpr mute))]
      obtain ⟨-, late⟩ := passed.unfailing_append.mp unfailing
      have bound : write.result ≤ before.sub.sourceSend.unread.length := late.1
      have value_eq := value_of_sourceSendBufferPopData answer
      by_cases refused : Refused write.net
      · rw [fair.refused refused, if_pos (by decide), if_pos (by decide)] at value_eq
        rw [result_eq, value_eq, AutoGrowBuffer.popResult, if_pos (Or.inl (by decide))]
        exact iff_of_true (by decide) refused
      · have nonneg : ¬value < 0 ∧ ¬value > before.sub.sourceSend.unread.length := by
          rcases fair.served refused with waits | taken
          · rw [if_pos (nonpos_of_wants waits), if_neg (not_not.mpr waits)] at value_eq
            omega
          · rw [if_neg (not_le.mpr taken)] at value_eq
            omega
        rw [result_eq, AutoGrowBuffer.popResult, if_neg (not_or.mpr nonneg)]
        exact iff_of_false nonneg.1 refused
    exact encrypted.then (passed_members rfl rfl)
  · cases execution
    exact (Passed.refl before).answers blocked_nil fun _ => le_rfl

/-- Sending what is queued encrypted fails exactly if its `write` failed. -/
theorem answers_sendQueued (handler : SocketHandler η) {kernel : WriteResult}
    (transient : kernel.Transient) (execution : sendQueued kernel before = some (result, after)) :
    Answers (holder handler) before result after := by
  rw [sendQueued, SoundBuffer.getSize_eq] at execution
  split at execution
  · rename_i queued
    rw [Option.bind_eq_bind, Option.bind_eq_some_iff] at execution
    obtain ⟨⟨popped, tlsSend, next⟩, pop, execution⟩ := execution
    obtain ⟨popLen, answer, consumed⟩ := SoundBuffer.popHeadData_eq_some_iff.mp pop
    cases execution
    have offer_ne : before.sub.tlsSend.unread ≠ [] :=
      fun empty => queued (List.length_eq_zero_iff.mpr empty)
    have written := Socket.answers_rawSend transient offer_ne (holder handler) before
    rw [Option.some.inj answer, ← (SoundBuffer.consume_spec popLen before.sub.tlsSend).1,
      consumed] at written
    exact written.then (passed_members rfl rfl)
  · cases execution
    exact (Passed.refl before).answers blocked_nil fun _ => le_rfl

/-- `OnWrite` fails exactly if one of its writes failed. -/
theorem answers_onWrite {input : TlsInput} (fair : input.Fair) (ready : before.sub.init = true)
    (execution : onWrite handler input before = some (result, after)) :
    Answers (holder handler) before result after := by
  rw [onWrite, if_neg (not_not.mpr ready)] at execution
  have called : (sslHandshake input.handshake before).1 = input.handshake.result := rfl
  simp only [called] at execution
  by_cases complete : input.handshake.result = 0
  · obtain ⟨shown, shaken, free⟩ := passed_complete handler fair.handshake complete before
    refine shaken.continue (fun _ => free) ?_
    simp only [complete, ne_eq, not_true, if_false, Option.bind_eq_bind,
      Option.bind_eq_some_iff] at execution
    obtain ⟨⟨encrypted, middle⟩, first, execution⟩ := execution
    have encrypting := answers_encryptQueued handler fair.write first
    simp only at execution
    split at execution
    · rename_i failed
      cases execution
      exact encrypting.failed failed (by decide)
    rename_i succeeded
    obtain ⟨early, passed, unblocked⟩ := encrypting.free succeeded
    refine passed.continue unblocked ?_
    rw [Option.bind_eq_some_iff] at execution
    obtain ⟨⟨sent, last⟩, second, execution⟩ := execution
    have sending := answers_sendQueued handler fair.rawWrite second
    simp only at execution
    split at execution
    · rename_i failed
      cases execution
      exact sending.failed failed (by decide)
    rename_i succeeded
    obtain ⟨late, written, unblocked⟩ := sending.free succeeded
    refine written.continue unblocked ?_
    split at execution
    · simp only [Option.bind_eq_some_iff] at execution
      obtain ⟨next, calls, execution⟩ := execution
      cases execution
      obtain ⟨rest, told, quiet⟩ := passed_told calls rfl id
      exact told.answers (by simpa [Event.Refused] using quiet) fun _ => le_rfl
    · cases execution
      exact (Passed.refl _).answers blocked_nil fun _ => le_rfl
  · have incomplete := answers_incomplete handler fair.handshake complete 0 before
    rw [if_pos complete] at execution
    exact incomplete.of_ite execution

end Methods

/-- The encrypted transport reports the failures of its writes, and only these. -/
theorem enduring (handler : SocketHandler η) :
    Socket.Enduring (socketClass handler) (holder handler) TlsInput.Fair where
  onConnect _ _ _ execution := passed_onConnect execution
  onRead _ _ _ _ _ _ fair ready execution := answers_onRead fair ready execution
  onWrite _ _ _ _ fair ready execution := answers_onWrite fair ready execution

/-- The bytes the library accepted to encrypt in an event. -/
def encryptedBy : Event → List UInt8
  | .sslWrite buf result => buf.take result.toNat
  | _ => []

/-- A library that takes no more than it is given takes what it reports. -/
theorem encryptedBy_of_unfailing {handler : SocketHandler η} {state : η} {shown : List Event}
    (unfailing : handler.Unfailing state shown) :
    shown.flatMap encryptedBy = shown.flatMap takenBy := by
  refine List.flatMap_congr fun event mem => ?_
  obtain ⟨reached, content⟩ := History.exists_state_of_along unfailing mem
  cases event with
  | sslWrite buf result =>
      have bound : result ≤ buf.length := content
      rw [encryptedBy, takenBy]
      by_cases nonpos : result ≤ 0
      · rw [popCount_of_nonpos nonpos, Int.toNat_of_nonpos nonpos]
      · rw [AutoGrowBuffer.popCount, if_neg (by omega)]
  | _ => rfl

/-- The connection is not given up, only bytes that the library accepted left `source_send_`, and
only bytes that the kernel accepted in some of the writes left `tls_send_`. -/
def Survives (before : Socket (TransmissionSecurity η)) (shown : List Event)
    (after : Socket (TransmissionSecurity η)) : Prop :=
  after.status ≠ .disconnected ∧
    shown.flatMap encryptedBy ++ after.sub.sourceSend.unread =
      before.sub.sourceSend.unread ++ shown.flatMap suppliedBy ∧
    ∃ writes : List Event, writes.Sublist shown ∧
      writes.flatMap acceptedBy ++ after.sub.tlsSend.unread = before.sub.tlsSend.unread

/-- The queues are safe in any case, so the status decides. -/
theorem survives_iff {handler : SocketHandler η} {call : Socket.Call TlsInput}
    {before after : Socket (TransmissionSecurity η)} {shown : List Event}
    (ordeal : Socket.Ordeal (socketClass handler) (holder handler) TlsInput.Fair call
      before shown after) :
    Survives before shown after ↔ ¬Blocked shown ∧ ¬Socket.Misjudged call before := by
  have same {others : List Event} (others_eq : after.log = before.log ++ others) :
      others = shown := List.append_cancel_left (others_eq.symm.trans ordeal.log_eq)
  have queued := queued_perform ordeal.execution
  obtain ⟨others, others_eq, conserved⟩ := queued.staged
  rw [same others_eq] at conserved
  have taken : shown.flatMap encryptedBy ++ after.sub.sourceSend.unread =
      before.sub.sourceSend.unread ++ shown.flatMap suppliedBy := by
    rw [encryptedBy_of_unfailing ordeal.unfailing]
    exact conserved
  obtain ⟨again, writes, again_eq, among, accepted⟩ := queued.written
  rw [same again_eq] at among
  have sent : ∃ writes : List Event, writes.Sublist shown ∧
      writes.flatMap acceptedBy ++ after.sub.tlsSend.unread = before.sub.tlsSend.unread :=
    ⟨writes, among, accepted⟩
  rw [Survives, and_iff_left ⟨taken, sent⟩, ← not_or, not_iff_not]
  exact (enduring handler).given_up_iff ordeal

/-- A library whose first flight the kernel has no room for. -/
def blockedFlight : TlsInput where
  handshake := { net := [.send [22] (.failed .eagain)], result := -1 }
  reads := []
  write := { net := [], result := errSslWantWrite }
  rawWrite := .accepts 1

theorem fair_blockedFlight : blockedFlight.Fair where
  handshake := {
    transient := List.forall_mem_singleton.mpr rfl
    refused := fun _ => rfl
    served := fun served => absurd ⟨_, List.mem_singleton.mpr rfl, by decide, by decide⟩ served }
  reads := List.forall_mem_nil _
  write := {
    transient := List.forall_mem_nil _
    refused := fun ⟨_, mem, _⟩ => absurd mem List.not_mem_nil
    served := fun _ => Or.inl rfl }
  rawWrite := Nat.one_pos

/-- The flight fails, and with it the handshake of the first write. -/
theorem ordeal_blockedFlight (handler : SocketHandler η)
    {socket : Socket (TransmissionSecurity η)} (connected : socket.status = .connected)
    (ready : socket.sub.init = true) :
    Socket.Ordeal (socketClass handler) (holder handler) TlsInput.Fair
      (.realWrite .clear blockedFlight) socket
      [.kernelWrite socket.fd [22] (-1), .netSend [22] (-1), .sslHandshake (-1),
        .assigned .disconnected]
      ((sslHandshake blockedFlight.handshake socket).2.assign .disconnected) where
  alive := Or.inr connected
  ready := ready
  transient := ⟨trivial, fair_blockedFlight⟩
  execution := by
    have shaken : onWrite handler blockedFlight socket =
        some (-1, (sslHandshake blockedFlight.handshake socket).2) := by
      rw [onWrite, if_neg (not_not.mpr ready)]
      rfl
    have written : (socketClass handler).onWrite blockedFlight socket = _ := shaken
    simp only [Socket.perform, Socket.realWrite, connected, Socket.writeData, written]
    rfl
  log_eq := by
    have flight := log_netSend (List.cons_ne_nil 22 []) (.failed .eagain) socket
    change (netCall (.send [22] (.failed .eagain)) socket).log ++ [_] ++ [_] = _
    rw [flight, List.append_assoc, List.append_assoc]
    rfl
  unfailing := ⟨trivial, trivial, trivial, trivial, trivial⟩

end TransmissionSecurity

/-- A call of `RealRead` or `RealWrite` in which nothing fails but calls of the kernel that would
block leaves the connection and its queued bytes alone exactly if no `write` is among these calls,
and the pending error of a connection in progress is not `EAGAIN`. -/
theorem transients_survived_iff {η : Type} (handler : SocketHandler η) :
    (∀ call before shown after,
      Socket.Ordeal (Transmission.socketClass handler) (Transmission.holder handler)
          WriteResult.Transient call before shown after →
        (Transmission.Survives before shown after ↔
          ¬Blocked shown ∧ ¬Socket.Misjudged call before)) ∧
    ∀ call before shown after,
      Socket.Ordeal (TransmissionSecurity.socketClass handler)
          (TransmissionSecurity.holder handler) TransmissionSecurity.TlsInput.Fair call before
          shown after →
        (TransmissionSecurity.Survives before shown after ↔
          ¬Blocked shown ∧ ¬Socket.Misjudged call before) :=
  ⟨fun _ _ _ _ => Transmission.survives_iff, fun _ _ _ _ => TransmissionSecurity.survives_iff⟩

theorem transients_survived_iff_blockedFlight :
    (∃ before shown after,
      PartialRun.run (Socket.perform (Transmission.socketClass SocketHandler.sink))
        (Socket.connectCalls (.accepts 1)) (Transmission.construct ()) = some before ∧
      Socket.Ordeal (Transmission.socketClass SocketHandler.sink)
        (Transmission.holder SocketHandler.sink) WriteResult.Transient (.realRead []) before shown
        after ∧
      (Transmission.Survives before shown after ↔
        ¬Blocked shown ∧ ¬Socket.Misjudged (.realRead ([] : List (_ × WriteResult))) before)) ∧
    ∃ before shown after,
      PartialRun.run (Socket.perform (TransmissionSecurity.socketClass SocketHandler.sink))
        (Socket.connectCalls TransmissionSecurity.shaking)
        (TransmissionSecurity.setSecurityLicence TransmissionSecurity.setUp
          (TransmissionSecurity.construct ())).2 = some before ∧
      Socket.Ordeal (TransmissionSecurity.socketClass SocketHandler.sink)
        (TransmissionSecurity.holder SocketHandler.sink) TransmissionSecurity.TlsInput.Fair
        (.realWrite .clear TransmissionSecurity.blockedFlight) before shown after ∧
      (TransmissionSecurity.Survives before shown after ↔ ¬Blocked shown ∧
        ¬Socket.Misjudged (.realWrite .clear TransmissionSecurity.blockedFlight) before) := by
  constructor
  · obtain ⟨before, reached, connected⟩ : ∃ before,
        PartialRun.run (Socket.perform (Transmission.socketClass SocketHandler.sink))
          (Socket.connectCalls (.accepts 1)) (Transmission.construct ()) = some before ∧
        before.status = .connected := ⟨_, rfl, rfl⟩
    have ordeal := Transmission.ordeal_idleRead SocketHandler.sink connected
    exact ⟨before, _, _, reached, ordeal,
      (transients_survived_iff SocketHandler.sink).1 _ _ _ _ ordeal⟩
  · obtain ⟨before, reached, connected, ready, -⟩ := TransmissionSecurity.connectCalls_secured
    have ordeal := TransmissionSecurity.ordeal_blockedFlight SocketHandler.sink connected ready
    exact ⟨before, _, _, reached, ordeal,
      (transients_survived_iff SocketHandler.sink).2 _ _ _ _ ordeal⟩

/-- A full buffer of the kernel ends a connection with three bytes in `send_`. -/
theorem blockedWrite_gives_up :
    ∃ start before shown after,
      PartialRun.run (Socket.perform (Transmission.socketClass SocketHandler.sink))
        (Socket.connectCalls (.accepts 1)) (Transmission.construct ()) = some start ∧
      Socket.perform (Transmission.socketClass SocketHandler.sink) (.send (.bytes [1, 2, 3]))
        start = some before ∧
      before.sub.sendBuffer.unread = [1, 2, 3] ∧
      Socket.Ordeal (Transmission.socketClass SocketHandler.sink)
        (Transmission.holder SocketHandler.sink) WriteResult.Transient
        (.realWrite .clear (.failed .eagain)) before shown after ∧
      ¬Transmission.Survives before shown after := by
  obtain ⟨start, reached, connected, fresh⟩ : ∃ start,
      PartialRun.run (Socket.perform (Transmission.socketClass SocketHandler.sink))
        (Socket.connectCalls (.accepts 1)) (Transmission.construct ()) = some start ∧
      start.status = .connected ∧
      start.sub.sendBuffer = .construct Transmission.kSendBufLen := ⟨_, rfl, rfl, rfl⟩
  obtain ⟨added_eq, -⟩ := AutoGrowBuffer.added_of_length_le
    (by decide : [(1 : UInt8), 2, 3].length ≤ AutoGrowBuffer.kMaxLen)
  have empty : start.sub.sendBuffer.unread = [] := by
    rw [fresh, SoundBuffer.construct_unread]
  have room : start.sub.sendBuffer.unread.length +
      (AutoGrowBuffer.added (.bytes [1, 2, 3])).length < 2 ^ 30 := by
    rw [empty, added_eq]
    decide
  obtain ⟨result, before, sent, unread_eq⟩ := Transmission.exists_send (.bytes [1, 2, 3]) room
  rw [empty, added_eq, List.nil_append] at unread_eq
  have performed : Socket.perform (Transmission.socketClass SocketHandler.sink)
      (.send (.bytes [1, 2, 3])) start = some before := congrArg (Option.map Prod.snd) sent
  have still : before.status = .connected := by
    obtain ⟨sendBuffer, -, rfl⟩ := Transmission.send_eq_some.mp sent
    exact connected
  have waiting : before.sub.sendBuffer.unread ≠ [] := by
    rw [unread_eq]
    exact List.cons_ne_nil _ _
  obtain ⟨shown, after, ordeal, given_up⟩ :=
    Transmission.exists_refusedWrite SocketHandler.sink still waiting
  exact ⟨start, before, shown, after, reached, performed, unread_eq, ordeal,
    fun survives => survives.1 given_up⟩

end NetworkBase
