import NetworkBase.Library.History
import NetworkBase.Transport.QueueStream
import NetworkBase.Transport.TransmissionSecurity

/-!
# Plaintext stays behind the library

Whatever the library answers, the kernel sees only what the registered send callback gives it, the
library encrypts only in an `OnWrite` after its handshake, and the handler is offered data only in
an `OnRead` after its handshake.  `tls_send_`, whose contents `OnWrite` would send raw, is never
filled.
-/

namespace NetworkBase
namespace TransmissionSecurity

variable {η : Type}

/-- A call of a public or virtual method of the encrypted transport. -/
inductive TlsCall
  | setSecurityLicence (answers : SetupAnswers)
  | send (data : CharSpan)
  | onRead (input : TlsInput) (chunk : Chunk) (finish : Bool)
  | onWrite (input : TlsInput)

/-- One such call. -/
def tlsStep (handler : SocketHandler η) :
    TlsCall → Socket (TransmissionSecurity η) → Option (Socket (TransmissionSecurity η))
  | .setSecurityLicence answers, socket => some (setSecurityLicence answers socket).2
  | .send data, socket => (send data socket).map Prod.snd
  | .onRead input chunk finish, socket =>
      (onRead handler input chunk finish socket).map Prod.snd
  | .onWrite input, socket => (onWrite handler input socket).map Prod.snd

/-- Every write to the kernel is followed at once by the send callback it is a part of. -/
def Enclosed : List Event → Prop
  | [] => True
  | event :: rest =>
      (∀ fd buf result, event = .kernelWrite fd buf result →
        ∃ value more, rest = .netSend buf value :: more) ∧
      Enclosed rest

/-- The library encrypts and the handler is offered data only after a handshake that was complete
in the same call. -/
def Behind (call : TlsCall) (earlier : List Event) : Event → Prop
  | .sslWrite _ _ =>
      .sslHandshake 0 ∈ earlier ∧ ∃ input, call = .onWrite input ∧ input.handshake.result = 0
  | .onData _ _ =>
      .sslHandshake 0 ∈ earlier ∧
        ∃ input chunk finish, call = .onRead input chunk finish ∧ input.handshake.result = 0
  | _ => True

theorem Enclosed.append {first rest : List Event} (enclosed : Enclosed first)
    (more : Enclosed rest) : Enclosed (first ++ rest) := by
  induction first with
  | nil => exact more
  | cons event first ih =>
      obtain ⟨head, tail⟩ := enclosed
      refine ⟨?_, ih tail⟩
      intro fd buf result write
      obtain ⟨value, shown, rfl⟩ := head fd buf result write
      exact ⟨value, shown ++ rest, List.cons_append⟩

/-- Events without writes. -/
theorem Enclosed.of_no_write {shown : List Event}
    (none : ∀ event ∈ shown, ∀ fd buf result, event ≠ .kernelWrite fd buf result) :
    Enclosed shown := by
  induction shown with
  | nil => trivial
  | cons event shown ih =>
      obtain ⟨head, tail⟩ := List.forall_mem_cons.mp none
      exact ⟨fun fd buf result write => absurd write (head fd buf result), ih tail⟩

theorem Enclosed.followed {earlier later : List Event} {fd : Int} {buf : List UInt8} {result : Int}
    (enclosed : Enclosed (earlier ++ .kernelWrite fd buf result :: later)) :
    ∃ value rest, later = .netSend buf value :: rest := by
  induction earlier with
  | nil => exact enclosed.1 fd buf result rfl
  | cons event earlier ih => exact ih enclosed.2

/-- An event that is neither a write, an encryption nor an offer. -/
def Harmless : Event → Prop
  | .kernelWrite _ _ _ => False
  | .sslWrite _ _ => False
  | .onData _ _ => False
  | _ => True

/-- Since `base` a call kept to the rules, and there is nothing to be sent raw. -/
structure Sheltered (call : TlsCall) (base : List Event)
    (socket : Socket (TransmissionSecurity η)) : Prop where
  enclosed : ∃ shown, socket.log = base ++ shown ∧ Enclosed shown
  judged : History.Throughout (Behind call) base socket.log
  drained : socket.sub.tlsSend.unread = []

/-- Since `base` a handshake was complete. -/
def Shaken (base : List Event) (socket : Socket (TransmissionSecurity η)) : Prop :=
  ∃ since, socket.log = base ++ since ∧ .sslHandshake 0 ∈ since

section Steps

variable {call : TlsCall} {base : List Event} {before after : Socket (TransmissionSecurity η)}

theorem Shaken.grow (shaken : Shaken base before) (grown : before.log <+: after.log) :
    Shaken base after := by
  obtain ⟨since, log_eq, mem⟩ := shaken
  obtain ⟨more, more_eq⟩ := grown
  exact ⟨since ++ more, by rw [← more_eq, log_eq, List.append_assoc], List.mem_append_left _ mem⟩

theorem Shaken.steps {allowed : Event → Prop} (shaken : Shaken base before)
    (steps : Socket.SubSteps allowed before after) : Shaken base after := by
  obtain ⟨shown, log_eq, -⟩ := steps.log_extends
  exact shaken.grow ⟨shown, log_eq.symm⟩

theorem Sheltered.start (drained : before.sub.tlsSend.unread = []) :
    Sheltered call before.log before :=
  ⟨⟨[], (List.append_nil _).symm, trivial⟩, .start _ _, drained⟩

theorem Sheltered.grown (sheltered : Sheltered call base before) : base <+: before.log := by
  obtain ⟨shown, log_eq, -⟩ := sheltered.enclosed
  exact ⟨shown, log_eq.symm⟩

/-- Enclosed writes and harmless events. -/
theorem Sheltered.extend (sheltered : Sheltered call base before)
    (queue_eq : after.sub.tlsSend = before.sub.tlsSend) {shown : List Event}
    (log_eq : after.log = before.log ++ shown) (enclosed : Enclosed shown)
    (always : ∀ event ∈ shown, ∀ earlier, Behind call earlier event) :
    Sheltered call base after := by
  obtain ⟨since, since_eq, closed⟩ := sheltered.enclosed
  refine ⟨⟨since ++ shown, ?_, closed.append enclosed⟩, ?_, ?_⟩
  · rw [log_eq, since_eq, List.append_assoc]
  · rw [log_eq]
    exact sheltered.judged.append sheltered.grown always
  · rw [queue_eq]
    exact sheltered.drained

/-- Harmless events. -/
theorem Sheltered.harmless (sheltered : Sheltered call base before)
    (queue_eq : after.sub.tlsSend = before.sub.tlsSend) {shown : List Event}
    (log_eq : after.log = before.log ++ shown) (harmless : ∀ event ∈ shown, Harmless event) :
    Sheltered call base after := by
  refine sheltered.extend queue_eq log_eq (.of_no_write ?_) ?_
  · rintro event mem fd buf result rfl
    exact harmless _ mem
  · intro event mem earlier
    have ok := harmless event mem
    cases event with
    | kernelWrite fd buf result => exact absurd ok id
    | sslWrite buf result => exact absurd ok id
    | onData offer result => exact absurd ok id
    | _ => trivial

theorem Sheltered.emit (sheltered : Sheltered call base before) {event : Event}
    (harmless : Harmless event) : Sheltered call base (before.emit event) :=
  sheltered.harmless rfl rfl (List.forall_mem_singleton.mpr harmless)

/-- A step that leaves `tls_send_` and the log alone. -/
theorem Sheltered.congr (sheltered : Sheltered call base before)
    (queue_eq : after.sub.tlsSend = before.sub.tlsSend) (log_eq : after.log = before.log) :
    Sheltered call base after :=
  sheltered.harmless queue_eq (log_eq.trans (List.append_nil _).symm) (by simp)

/-- An encryption or an offer where it belongs. -/
theorem Sheltered.judge (sheltered : Sheltered call base before) (shaken : Shaken base before)
    {event : Event} (quietly : ∀ fd buf result, event ≠ .kernelWrite fd buf result)
    (behind : ∀ since, .sslHandshake 0 ∈ since → Behind call since event) :
    Sheltered call base (before.emit event) := by
  obtain ⟨shown, shown_eq, closed⟩ := sheltered.enclosed
  obtain ⟨since, log_eq, mem⟩ := shaken
  refine ⟨⟨shown ++ [event], ?_, closed.append (.of_no_write ?_)⟩, ?_, sheltered.drained⟩
  · rw [Socket.log_emit, shown_eq, List.append_assoc]
  · exact List.forall_mem_singleton.mpr quietly
  · exact sheltered.judged.concat log_eq (behind since mem)

/-- The callbacks of the library enclose their writes. -/
theorem sheltered_netCall (first : NetCall) (sheltered : Sheltered call base before) :
    Sheltered call base (netCall first before) := by
  obtain ⟨tlsRead, readTempLen, sub_eq⟩ := sub_netCall first before
  have queue_eq : (netCall first before).sub.tlsSend = before.sub.tlsSend := by rw [sub_eq]
  cases first with
  | recv len =>
      have shown : ∃ result stored, (netCall (.recv len) before).log =
          before.log ++ [.netRecv len result stored] := by
        simp only [netCall, mbedtlsNetRecv]
        split
        · exact ⟨_, _, rfl⟩
        · split
          · exact ⟨_, _, rfl⟩
          · exact ⟨_, _, rfl⟩
      obtain ⟨result, stored, log_eq⟩ := shown
      exact sheltered.harmless queue_eq log_eq (List.forall_mem_singleton.mpr trivial)
  | send buf kernel =>
      have reported : ∃ value, (netCall (.send buf kernel) before).log =
          (before.rawSend kernel (.bytes buf)).2.log ++ [.netSend buf value] := by
        simp only [netCall, mbedtlsNetSend]
        split
        · exact ⟨_, rfl⟩
        · exact ⟨_, rfl⟩
      obtain ⟨value, log_eq⟩ := reported
      rcases Socket.rawSend_cases kernel (.bytes buf) before with same | shown
      · rw [same] at log_eq
        exact sheltered.harmless queue_eq log_eq (List.forall_mem_singleton.mpr trivial)
      · rw [shown, Socket.log_emit, List.append_assoc] at log_eq
        refine sheltered.extend queue_eq log_eq ⟨?_, ?_, trivial⟩ ?_
        · rintro fd sent result write
          cases write
          exact ⟨value, [], rfl⟩
        · rintro fd sent result write
          cases write
        · intro event mem earlier
          rcases List.mem_pair.mp mem with rfl | rfl
          · trivial
          · trivial

theorem sheltered_netCalls (calls : List NetCall) (sheltered : Sheltered call base before) :
    Sheltered call base (netCalls calls before) :=
  netCalls_keeps (Sheltered call base) (fun first _ => sheltered_netCall first) calls sheltered

/-- The decrypting loop. -/
theorem sheltered_decrypt {reads : List SslRead} {flagged : Bool}
    (sheltered : Sheltered call base before)
    (execution : decrypt reads before = some (flagged, after)) : Sheltered call base after := by
  refine decrypt_keeps (Sheltered call base) (fun first _ => sheltered_netCall first) ?_
    execution sheltered
  intro bytes sourceRead socket fetched
  have shown : Sheltered call base (socket.emit (.sslRead bytes)) := fetched.emit trivial
  exact shown.congr rfl rfl

/-- `Send` fills another queue. -/
theorem sheltered_send {data : CharSpan} {result : Int} (sheltered : Sheltered call base before)
    (execution : send data before = some (result, after)) : Sheltered call base after := by
  rw [send] at execution
  split at execution
  · cases execution
    exact sheltered.emit trivial
  · rw [Option.bind_eq_bind, Option.bind_eq_some_iff] at execution
    obtain ⟨⟨value, sourceSend⟩, -, execution⟩ := execution
    cases execution
    have queued : Sheltered call base (update (fun sub => { sub with sourceSend }) before) :=
      sheltered.congr rfl rfl
    exact queued.emit trivial

theorem Sheltered.bare (sheltered : Sheltered call base before)
    (alone : Socket.Bare before after) : Sheltered call base after := by
  obtain ⟨sub_eq, shown, log_eq, plain⟩ := alone
  refine sheltered.harmless (by rw [sub_eq]) log_eq ?_
  intro event mem
  have plainly := plain event mem
  cases event with
  | assigned status => trivial
  | realConnect => trivial
  | opened fd => trivial
  | _ => exact absurd plainly id

/-- The calls that the handler makes in a callback. -/
theorem Sheltered.callBack {calls : List PublicCall} (sheltered : Sheltered call base before)
    (execution : Socket.callBack send calls before = some after) : Sheltered call base after :=
  Socket.callBack_keeps (fun _ _ => Sheltered.bare) (fun _ _ _ _ => sheltered_send) execution
    sheltered

/-- A complete handshake shows. -/
theorem Shaken.of_complete {handshake : SslCall} (done : handshake.result = 0)
    (grown : base <+: (netCalls handshake.net before).log) :
    Shaken base (sslHandshake handshake before).2 := by
  obtain ⟨since, since_eq⟩ := grown
  refine ⟨since ++ [.sslHandshake handshake.result], ?_, ?_⟩
  · rw [← List.append_assoc, since_eq]
    rfl
  · rw [done]
    exact List.mem_append_right _ (List.mem_singleton.mpr rfl)

/-- `OnRead` offers data only when its handshake is complete. -/
theorem sheltered_onRead {handler : SocketHandler η} {input : TlsInput} {chunk : Chunk}
    {finish : Bool} {result : Int} (drained : before.sub.tlsSend.unread = [])
    (execution : onRead handler input chunk finish before = some (result, after)) :
    Sheltered (.onRead input chunk finish) before.log after := by
  have initial : Sheltered (.onRead input chunk finish) before.log before := .start drained
  have staged : ∀ tlsRead, Sheltered (.onRead input chunk finish) before.log
      (update (fun sub => { sub with tlsRead }) before) := fun _ => initial.congr rfl rfl
  have called := fun tlsRead => sheltered_netCalls input.handshake.net (staged tlsRead)
  have answered : ∀ tlsRead, Sheltered (.onRead input chunk finish) before.log
      (sslHandshake input.handshake (update (fun sub => { sub with tlsRead }) before)).2 :=
    fun tlsRead => (called tlsRead).emit trivial
  cases readEnds_of_onRead execution with
  | unready => exact initial
  | stored _ tlsRead => exact staged tlsRead
  | shaking _ tlsRead => exact answered tlsRead
  | failed _ tlsRead _ _ _ looped => exact sheltered_decrypt (answered tlsRead) looped
  | offered _ tlsRead _ complete decrypted looped value next calls sourceRead =>
      have fetched := sheltered_decrypt (answered tlsRead) looped
      have shaken : Shaken before.log
          (sslHandshake input.handshake (update (fun sub => { sub with tlsRead }) before)).2 :=
        .of_complete complete (called tlsRead).grown
      have still := shaken.steps (decrypt_within looped)
      have offered : Sheltered (.onRead input chunk finish) before.log
          (decrypted.emit (.onData decrypted.sub.sourceRead.unread value)) :=
        fetched.judge still (by simp) fun since mem => ⟨mem, input, chunk, finish, rfl, complete⟩
      have moved : Sheltered (.onRead input chunk finish) before.log (update (fun sub =>
          { sub with handler :=
            (handler.onData decrypted.sub.sourceRead.unread decrypted.sub.handler).2.2 })
          (decrypted.emit (.onData decrypted.sub.sourceRead.unread value))) :=
        offered.congr rfl rfl
      exact (moved.callBack calls).congr rfl rfl

/-- The encrypting part of `OnWrite`. -/
theorem sheltered_encryptQueued {input : TlsInput} {result : Int}
    (sheltered : Sheltered (.onWrite input) base before) (shaken : Shaken base before)
    (done : input.handshake.result = 0)
    (execution : encryptQueued input.write before = some (result, after)) :
    Sheltered (.onWrite input) base after := by
  rw [encryptQueued] at execution
  split at execution
  · rw [Option.bind_eq_bind, Option.bind_eq_some_iff] at execution
    obtain ⟨⟨popped, sourceSend, next⟩, pop, execution⟩ := execution
    cases execution
    obtain ⟨value, answer, -⟩ := SoundBuffer.popHeadData_eq_some_iff.mp pop
    have encrypted : Sheltered (.onWrite input) base
        ((netCalls input.write.net before).emit
          (.sslWrite before.sub.sourceSend.unread input.write.result)) :=
      (sheltered_netCalls input.write.net sheltered).judge
        (shaken.steps (netCalls_within input.write.net before)) (by simp)
          fun since mem => ⟨mem, input, rfl, done⟩
    rw [next_of_sourceSendBufferPopData answer]
    exact encrypted.congr rfl rfl
  · cases execution
    exact sheltered

/-- The sending part of `OnWrite` finds nothing to send. -/
theorem sendQueued_of_drained {kernel : WriteResult} {result : Int}
    (drained : before.sub.tlsSend.unread = [])
    (execution : sendQueued kernel before = some (result, after)) : after = before := by
  rw [sendQueued, SoundBuffer.getSize_eq, drained, if_neg (by simp)] at execution
  cases execution
  rfl

/-- `OnWrite` encrypts only when its handshake is complete, and sends nothing itself. -/
theorem sheltered_onWrite {handler : SocketHandler η} {input : TlsInput} {result : Int}
    (drained : before.sub.tlsSend.unread = [])
    (execution : onWrite handler input before = some (result, after)) :
    Sheltered (.onWrite input) before.log after := by
  have initial : Sheltered (.onWrite input) before.log before := .start drained
  have called := sheltered_netCalls input.handshake.net initial
  have answered : Sheltered (.onWrite input) before.log
      (sslHandshake input.handshake before).2 := called.emit trivial
  refine onWrite_keeps initial answered ?_ ?_ ?_ execution
  · intro value next done first
    exact sheltered_encryptQueued answered (.of_complete done called.grown) done first
  · intro value middle next queued second
    obtain rfl := sendQueued_of_drained queued.drained second
    exact queued
  · intro middle next queued calls
    have shown : Sheltered (.onWrite input) before.log (middle.emit .onWrite) :=
      queued.emit trivial
    have moved : Sheltered (.onWrite input) before.log
        (update (fun sub => { sub with handler := (handler.onWrite middle.sub.handler).2 })
          (middle.emit .onWrite)) := shown.congr rfl rfl
    exact moved.callBack calls

/-- Every call keeps to the rules. -/
theorem sheltered_tlsStep {handler : SocketHandler η} (drained : before.sub.tlsSend.unread = [])
    (execution : tlsStep handler call before = some after) : Sheltered call before.log after := by
  have initial : Sheltered call before.log before := .start drained
  cases call with
  | setSecurityLicence answers =>
      cases execution
      rw [setSecurityLicence]
      split
      · exact initial
      split
      · exact initial
      split
      · exact initial
      split
      · exact initial
      split
      · exact initial
      · exact initial.congr rfl rfl
  | send data =>
      rw [tlsStep, Option.map_eq_some_iff] at execution
      obtain ⟨⟨result, next⟩, sent, rfl⟩ := execution
      exact sheltered_send initial sent
  | onRead input chunk finish =>
      rw [tlsStep, Option.map_eq_some_iff] at execution
      obtain ⟨⟨result, next⟩, read, rfl⟩ := execution
      exact sheltered_onRead drained read
  | onWrite input =>
      rw [tlsStep, Option.map_eq_some_iff] at execution
      obtain ⟨⟨result, next⟩, written, rfl⟩ := execution
      exact sheltered_onWrite drained written

end Steps

/-- In every reachable state `tls_send_` is empty, and whatever call comes next, each of its writes
is part of a send callback, it encrypts only as an `OnWrite` and offers data only as an `OnRead`,
and it does so only after its own handshake was complete. -/
theorem plaintext_behind_library (handler : SocketHandler η) (state : η) (calls : List TlsCall)
    (reached : Socket (TransmissionSecurity η))
    (execution : PartialRun.run (tlsStep handler) calls (construct state) = some reached) :
    reached.sub.tlsSend.unread = [] ∧
      ∀ call after, tlsStep handler call reached = some after →
        ∃ shown, after.log = reached.log ++ shown ∧
          (∀ earlier fd buf result later, shown = earlier ++ .kernelWrite fd buf result :: later →
            ∃ value rest, later = .netSend buf value :: rest) ∧
          ∀ earlier event later, shown = earlier ++ event :: later →
            Behind call earlier event := by
  have drained : reached.sub.tlsSend.unread = [] :=
    PartialRun.invariant (fun socket => socket.sub.tlsSend.unread = [])
      (fun _ _ _ drained step => (sheltered_tlsStep drained step).drained) execution
      (SoundBuffer.construct_unread kTlsSendLen)
  refine ⟨drained, ?_⟩
  intro call after step
  obtain ⟨⟨shown, log_eq, enclosed⟩, judged, -⟩ := sheltered_tlsStep drained step
  refine ⟨shown, log_eq, ?_, ?_⟩
  · rintro earlier fd buf result later rfl
    exact enclosed.followed
  · rintro earlier event later rfl
    exact judged earlier event later (by rw [log_eq, List.append_assoc])

/-- A setup that succeeds, and two bytes that wait for the next write. -/
def queuedSend : List TlsCall :=
  [.setSecurityLicence { seed := 0, parse := 0, defaults := 0, setup := 0 }, .send (.bytes [1, 2])]

theorem plaintext_behind_library_queuedSend :
    ∃ reached, PartialRun.run (tlsStep SocketHandler.sink) queuedSend (construct ()) =
        some reached ∧
      reached.sub.sourceSend.unread = [1, 2] ∧
      reached.sub.tlsSend.unread = [] ∧
      ∀ call after, tlsStep SocketHandler.sink call reached = some after →
        ∃ shown, after.log = reached.log ++ shown ∧
          (∀ earlier fd buf result later, shown = earlier ++ .kernelWrite fd buf result :: later →
            ∃ value rest, later = .netSend buf value :: rest) ∧
          ∀ earlier event later, shown = earlier ++ event :: later →
            Behind call earlier event := by
  obtain ⟨added_eq, -⟩ := AutoGrowBuffer.added_of_length_le
    (by decide : [(1 : UInt8), 2].length ≤ AutoGrowBuffer.kMaxLen)
  have fresh : (construct ()).sub.sourceSend.unread = [] := SoundBuffer.construct_unread kTlsReadLen
  have room : (construct ()).sub.sourceSend.unread.length +
      (AutoGrowBuffer.added (.bytes [1, 2])).length < 2 ^ 30 := by
    rw [added_eq, fresh]
    decide
  obtain ⟨sourceSend, added⟩ := (construct ()).sub.sourceSend.exists_addTailData _ room
  obtain ⟨-, unread_eq⟩ := SoundBuffer.addTailData_of_some added
  rw [added_eq, fresh] at unread_eq
  have sent : tlsStep SocketHandler.sink (.send (.bytes [1, 2]))
      (update (fun sub => { sub with init := true }) (construct ())) =
        some ((update (fun sub => { sub with init := true, sourceSend }) (construct ())).emit
          (.send (.bytes [1, 2]) (AutoGrowBuffer.addResult (.bytes [1, 2])))) := by
    simp [tlsStep, send, update, added]
  have execution : PartialRun.run (tlsStep SocketHandler.sink) queuedSend (construct ()) = some _ :=
    PartialRun.run_cons_eq_some.mpr ⟨_, rfl, PartialRun.run_cons_eq_some.mpr ⟨_, sent, rfl⟩⟩
  exact ⟨_, execution, unread_eq,
    plaintext_behind_library SocketHandler.sink () queuedSend _ execution⟩

end TransmissionSecurity
end NetworkBase
