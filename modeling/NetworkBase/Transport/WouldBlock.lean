import NetworkBase.Library.History
import NetworkBase.Transport.SendStream

/-!
# Calls of the kernel that would block

`RealRead` and `RealWrite` are followed through a call in which nothing fails but calls of the
kernel that would block.  `Enduring` says of a class that its methods report a failure exactly if
one of their writes would block; the base class then gives the connection up exactly in that case,
or when it takes a pending `EAGAIN` for a failed connection.
-/

namespace NetworkBase

/-- The call succeeds or would block. -/
def ReadResult.Transient : ReadResult → Prop
  | .failed errno => SocketAssistant.errorWouldBlock errno = true
  | .got chunk => chunk.val ≠ []

/-- The call succeeds or would block. -/
def WriteResult.Transient : WriteResult → Prop
  | .failed errno => SocketAssistant.errorWouldBlock errno = true
  | .accepts room => 0 < room

/-- The connection is established, or the pending error is one of a call that would block. -/
def SoError.Transient : SoError → Prop
  | .unreadable => False
  | .clear => True
  | .pending errno => SocketAssistant.errorWouldBlock errno = true

/-- A `write` that failed. -/
def Event.Refused : Event → Prop
  | .kernelWrite _ _ result => result < 0
  | _ => False

/-- Some `write` failed. -/
def Blocked (shown : List Event) : Prop := ∃ event ∈ shown, event.Refused

@[simp]
theorem blocked_nil : ¬Blocked [] := by simp [Blocked]

@[simp]
theorem blocked_append {first rest : List Event} :
    Blocked (first ++ rest) ↔ Blocked first ∨ Blocked rest := by
  simp [Blocked, or_and_right, exists_or]

@[simp]
theorem blocked_cons {event : Event} {rest : List Event} :
    Blocked (event :: rest) ↔ event.Refused ∨ Blocked rest := by
  simp [Blocked]

/-! ## The handler along the events -/

namespace SocketHandler

variable {η : Type}

/-- The state of the handler after an event. -/
def follow (handler : SocketHandler η) (state : η) : Event → η
  | .onConnect => (handler.onConnect state).2
  | .onDisconnect => (handler.onDisconnect state).2
  | .onData offer _ => (handler.onData offer state).2.2
  | .onWrite => (handler.onWrite state).2
  | _ => state

/-- In this state the handler does not fail in an event: it does not close the socket, and takes
some of what it is offered.  Neither does the library take more than it is given. -/
def Content (handler : SocketHandler η) (state : η) : Event → Prop
  | .onConnect => .close ∉ (handler.onConnect state).1
  | .onData offer result =>
      (0 ≤ result ∧ result ≤ offer.length) ∧ .close ∉ (handler.onData offer state).2.1
  | .onWrite => .close ∉ (handler.onWrite state).1
  | .sslWrite buf result => result ≤ buf.length
  | _ => True

/-- Neither the handler nor the library fails in these events. -/
def Unfailing (handler : SocketHandler η) : η → List Event → Prop :=
  History.Along handler.follow handler.Content

end SocketHandler

/-- An event without a callback of the handler. -/
def Event.Unheard : Event → Prop
  | .onConnect => False
  | .onDisconnect => False
  | .onData _ _ => False
  | .onWrite => False
  | _ => True

theorem Event.Unheard.follow_eq {η : Type} {event : Event} (unheard : event.Unheard)
    (handler : SocketHandler η) (state : η) : handler.follow state event = state := by
  cases event with
  | onConnect | onDisconnect | onData | onWrite => exact absurd unheard id
  | _ => rfl

/-- An event that neither concerns the handler nor is a failing `write`. -/
structure Event.Mute (event : Event) : Prop where
  unheard : event.Unheard
  accepted : ¬event.Refused

theorem Event.Mute.assigned (status : Status) : Event.Mute (.assigned status) := ⟨trivial, id⟩

theorem Event.Mute.kernelRead (fd : Int) (result : ReadResult) :
    Event.Mute (.kernelRead fd result) := ⟨trivial, id⟩

theorem Event.Mute.send (data : CharSpan) (result : Int) : Event.Mute (.send data result) :=
  ⟨trivial, id⟩

theorem not_blocked_of_mute {shown : List Event} (mute : ∀ event ∈ shown, event.Mute) :
    ¬Blocked shown := by
  rintro ⟨event, mem, refused⟩
  exact (mute event mem).accepted refused

/-- How a subclass holds its handler, and whether it serves the engine at all. -/
structure Holder (σ η : Type) where
  handler : SocketHandler η
  state : σ → η
  ready : σ → Prop

namespace Socket

variable {σ ι η : Type} {holder : Holder σ η}

/-! ## A method and its value -/

/-- Nothing fails in these events but calls of the kernel. -/
def Unfailing (holder : Holder σ η) (socket : Socket σ) (shown : List Event) : Prop :=
  holder.handler.Unfailing (holder.state socket.sub) shown

/-- Between two states these events were shown and the handler followed them, and unless it or the
library failed, a connected socket stayed connected. -/
structure Passed (holder : Holder σ η) (before after : Socket σ) (shown : List Event) : Prop where
  log_eq : after.log = before.log ++ shown
  followed : holder.state after.sub =
    shown.foldl holder.handler.follow (holder.state before.sub)
  ready : holder.ready before.sub → holder.ready after.sub
  connected : Unfailing holder before shown → before.status = .connected →
    after.status = .connected

/-- A method passed, and its value reports a failure exactly if a `write` failed. -/
def Answers (holder : Holder σ η) (before : Socket σ) (result : Int) (after : Socket σ) : Prop :=
  ∃ shown, Passed holder before after shown ∧
    (Unfailing holder before shown → (result < 0 ↔ Blocked shown))

/-- The connection was given up exactly if a `write` failed. -/
def Ends (holder : Holder σ η) (before after : Socket σ) : Prop :=
  ∃ shown, after.log = before.log ++ shown ∧
    (Unfailing holder before shown → before.status = .connected →
      (after.status = .disconnected ↔ Blocked shown))

section Composition

variable {before middle after : Socket σ} {first rest shown : List Event} {result : Int}

theorem Passed.unfailing_append (passed : Passed holder before middle first) :
    Unfailing holder before (first ++ rest) ↔
      Unfailing holder before first ∧ Unfailing holder middle rest := by
  rw [Unfailing, Unfailing, Unfailing, passed.followed]
  exact History.along_append

theorem Passed.refl (socket : Socket σ) : Passed holder socket socket [] where
  log_eq := (List.append_nil _).symm
  followed := rfl
  ready := id
  connected _ := id

theorem Passed.trans (passed : Passed holder before middle first)
    (next : Passed holder middle after rest) : Passed holder before after (first ++ rest) where
  log_eq := by rw [next.log_eq, passed.log_eq, List.append_assoc]
  followed := by rw [next.followed, passed.followed, List.foldl_append]
  ready := next.ready ∘ passed.ready
  connected unfailing connected :=
    have both := passed.unfailing_append.mp unfailing
    next.connected both.2 (passed.connected both.1 connected)

/-- Events without callbacks of the handler. -/
theorem Passed.of_unheard (log_eq : after.log = before.log ++ shown)
    (unheard : ∀ event ∈ shown, event.Unheard)
    (state_eq : holder.state after.sub = holder.state before.sub)
    (ready : holder.ready before.sub → holder.ready after.sub)
    (connected : before.status = .connected → after.status = .connected) :
    Passed holder before after shown where
  log_eq := log_eq
  followed := by
    rw [state_eq, History.foldl_of_still fun event mem => (unheard event mem).follow_eq _]
  ready := ready
  connected _ := connected

theorem Passed.emit {event : Event} (unheard : event.Unheard) (socket : Socket σ) :
    Passed holder socket (socket.emit event) [event] :=
  .of_unheard rfl (List.forall_mem_singleton.mpr unheard) rfl id id

/-- A value that reports no failure after a method without writes. -/
theorem Passed.answers (passed : Passed holder before after shown) (free : ¬Blocked shown)
    (succeeds : Unfailing holder before shown → 0 ≤ result) :
    Answers holder before result after :=
  ⟨shown, passed, fun unfailing =>
    iff_of_false (not_lt.mpr (succeeds unfailing)) free⟩

/-- What a method adds to events in which no `write` failed. -/
theorem Passed.continue (passed : Passed holder before middle first)
    (free : Unfailing holder before first → ¬Blocked first)
    (answers : Answers holder middle result after) : Answers holder before result after := by
  obtain ⟨shown, next, verdict⟩ := answers
  refine ⟨first ++ shown, passed.trans next, fun unfailing => ?_⟩
  obtain ⟨early, late⟩ := passed.unfailing_append.mp unfailing
  rw [verdict late, blocked_append, or_iff_right (free early)]

/-- Another value of a method that reports a failure. -/
theorem Answers.failed {other : Int} (answers : Answers holder before result after)
    (fails : result < 0) (also : other < 0) : Answers holder before other after := by
  obtain ⟨shown, passed, verdict⟩ := answers
  exact ⟨shown, passed, fun unfailing => (iff_of_true also fails).trans (verdict unfailing)⟩

/-- A value that the method reads off a test at its end. -/
theorem Answers.of_ite {test : Prop} [Decidable test] {fail done : Int}
    (answers : Answers holder before (if test then fail else done) middle)
    (execution : (if test then some (fail, middle) else some (done, middle)) =
      some (result, after)) : Answers holder before result after := by
  split at execution
  · rename_i fails
    cases execution
    rw [if_pos fails] at answers
    exact answers
  · rename_i succeeds
    cases execution
    rw [if_neg succeeds] at answers
    exact answers

/-- A silent end of a method. -/
theorem Answers.then (answers : Answers holder before result middle)
    (rest : Passed holder middle after []) : Answers holder before result after := by
  obtain ⟨shown, passed, verdict⟩ := answers
  have whole := passed.trans rest
  rw [List.append_nil] at whole
  exact ⟨shown, whole, verdict⟩

/-- The connection outlives a part in which no `write` failed. -/
theorem Passed.ends (passed : Passed holder before after shown)
    (free : Unfailing holder before shown → ¬Blocked shown) : Ends holder before after := by
  refine ⟨shown, passed.log_eq, ?_⟩
  intro unfailing connected
  have kept := passed.connected unfailing connected
  exact iff_of_false (by rw [kept]; decide) (free unfailing)

/-- What comes after a part in which no `write` failed decides. -/
theorem Passed.then_ends (passed : Passed holder before middle first)
    (free : Unfailing holder before first → ¬Blocked first) (ends : Ends holder middle after) :
    Ends holder before after := by
  obtain ⟨shown, log_eq, verdict⟩ := ends
  refine ⟨first ++ shown, by rw [log_eq, passed.log_eq, List.append_assoc], ?_⟩
  intro unfailing connected
  obtain ⟨early, late⟩ := passed.unfailing_append.mp unfailing
  rw [verdict late (passed.connected early connected), blocked_append, or_iff_right (free early)]

/-- The engine gives the connection up after a method that reports a failure. -/
theorem Answers.ends_of_neg (answers : Answers holder before result after) (fails : result < 0) :
    Ends holder before (after.assign .disconnected) := by
  obtain ⟨shown, passed, verdict⟩ := answers
  have log_eq : (after.assign .disconnected).log =
      before.log ++ (shown ++ [.assigned .disconnected]) := by
    rw [log_assign, passed.log_eq, List.append_assoc]
  refine ⟨_, log_eq, ?_⟩
  intro unfailing connected
  have blocked := (verdict (passed.unfailing_append.mp unfailing).1).mp fails
  exact iff_of_true rfl (blocked_append.mpr (Or.inl blocked))

/-- A method that reports no failure was not blocked. -/
theorem Answers.free (answers : Answers holder before result after) (succeeds : ¬result < 0) :
    ∃ shown, Passed holder before after shown ∧
      (Unfailing holder before shown → ¬Blocked shown) := by
  obtain ⟨shown, passed, verdict⟩ := answers
  exact ⟨shown, passed, fun unfailing blocked => succeeds ((verdict unfailing).mpr blocked)⟩

end Composition

/-! ## Writes -/

/-- The failure of a `write` goes through `send` and the queue that offered the bytes. -/
theorem answers_rawSend {kernel : WriteResult} {offer : List UInt8} (transient : kernel.Transient)
    (offer_ne : offer ≠ []) (holder : Holder σ η) (socket : Socket σ) :
    Answers holder socket
      (AutoGrowBuffer.popResult (socket.rawSend kernel (.bytes offer)).1 offer.length)
      (socket.rawSend kernel (.bytes offer)).2 := by
  have filled : (CharSpan.bytes offer).nonEmpty = true := by simp [CharSpan.nonEmpty, offer_ne]
  have positive : 0 < offer.length := List.length_pos_of_ne_nil offer_ne
  have unheard : Event.Unheard
      (.kernelWrite socket.fd offer (kernel.value offer.length)) := trivial
  rw [rawSend_eq filled, CharSpan.len_bytes]
  refine ⟨_, .emit unheard socket, fun _ => ?_⟩
  cases kernel with
  | failed errno => simp [WriteResult.value, AutoGrowBuffer.popResult, Blocked, Event.Refused]
  | accepts room =>
      have taken_pos : 0 < min room offer.length := lt_min transient positive
      have taken_le : min room offer.length ≤ offer.length := Nat.min_le_right _ _
      rw [WriteResult.value, if_neg (by omega), AutoGrowBuffer.popResult, if_neg (by omega)]
      refine iff_of_false (by omega) ?_
      rw [blocked_cons, or_iff_left blocked_nil, Event.Refused]
      omega

/-! ## Callbacks of the handler -/

/-- The handler has no part in what happened between two states. -/
structure Apart (holder : Holder σ η) (before after : Socket σ) : Prop where
  mute : ∃ shown, after.log = before.log ++ shown ∧ ∀ event ∈ shown, event.Mute
  state_eq : holder.state after.sub = holder.state before.sub
  ready : holder.ready before.sub → holder.ready after.sub

section Callbacks

variable {send : CharSpan → Socket σ → Option (Int × Socket σ)} {before middle after : Socket σ}
  {calls : List PublicCall}

theorem Apart.refl (socket : Socket σ) : Apart holder socket socket :=
  ⟨⟨[], (List.append_nil _).symm, List.forall_mem_nil _⟩, rfl, id⟩

theorem Apart.trans (first : Apart holder before middle) (rest : Apart holder middle after) :
    Apart holder before after := by
  obtain ⟨shown, shown_eq, mute⟩ := first.mute
  obtain ⟨more, more_eq, more_mute⟩ := rest.mute
  refine ⟨⟨shown ++ more, by rw [more_eq, shown_eq, List.append_assoc], ?_⟩,
    rest.state_eq.trans first.state_eq, rest.ready ∘ first.ready⟩
  exact fun event mem => (List.mem_append.mp mem).elim (mute event) (more_mute event)

/-- The base class alone. -/
theorem Apart.of_bare (alone : Bare before after) : Apart holder before after := by
  obtain ⟨sub_eq, shown, log_eq, plain⟩ := alone
  refine ⟨⟨shown, log_eq, fun event mem => ?_⟩, by rw [sub_eq], by rw [sub_eq]; exact id⟩
  have plainly := plain event mem
  cases event with
  | assigned | realConnect | opened => exact ⟨trivial, id⟩
  | _ => exact absurd plainly id

/-- A handler that does not close leaves a connected socket connected. -/
theorem connected_callBack
    (sends : ∀ data before result after, send data before = some (result, after) →
      after.status = before.status)
    (execution : callBack send calls before = some after) (stays : .close ∉ calls)
    (connected : before.status = .connected) : after.status = .connected := by
  induction calls generalizing before with
  | nil =>
      cases execution
      exact connected
  | cons call calls ih =>
      obtain ⟨other, later⟩ := not_or.mp (mt List.mem_cons.mpr stays)
      cases call with
      | send data =>
          rw [callBack, Option.bind_eq_bind, Option.bind_eq_some_iff] at execution
          obtain ⟨⟨result, middle⟩, sent, rest⟩ := execution
          exact ih rest later ((sends data before result middle sent).trans connected)
      | close => exact absurd rfl other
      | connect now timeoutMs =>
          refine ih execution later ?_
          rcases connect_cases now timeoutMs before with ⟨fresh, -, -⟩ | ⟨status_eq, -⟩
          · rw [connected] at fresh
            cases fresh
          · exact status_eq.trans connected
      | setProtocol protocol => exact ih execution later connected
      | setIpPort ip port => exact ih execution later connected

/-- A callback of the handler, and the calls it makes meanwhile. -/
theorem passed_callBack {event : Event}
    (sends : ∀ data before result after, send data before = some (result, after) →
      Apart holder before after ∧ after.status = before.status)
    (log_eq : middle.log = before.log ++ [event]) (status_eq : middle.status = before.status)
    (followed : holder.state middle.sub =
      holder.handler.follow (holder.state before.sub) event)
    (ready : holder.ready before.sub → holder.ready middle.sub)
    (stays : holder.handler.Content (holder.state before.sub) event → .close ∉ calls)
    (execution : callBack send calls middle = some after) :
    ∃ rest, Passed holder before after (event :: rest) ∧ ¬Blocked rest := by
  have apart : Apart holder middle after :=
    callBack_keeps (fun _ _ kept alone => kept.trans (.of_bare alone))
      (fun data first result last kept sent => kept.trans (sends data first result last sent).1)
      execution (.refl middle)
  obtain ⟨rest, rest_eq, mute⟩ := apart.mute
  refine ⟨rest, ?_, not_blocked_of_mute mute⟩
  refine ⟨?_, ?_, apart.ready ∘ ready, ?_⟩
  · rw [rest_eq, log_eq, List.append_assoc, List.singleton_append]
  · rw [apart.state_eq, followed, List.foldl_cons,
      History.foldl_of_still fun event mem => (mute event mem).unheard.follow_eq _]
  · intro unfailing connected
    have statuses (data : CharSpan) (first : Socket σ) (result : Int) (last : Socket σ)
        (sent : send data first = some (result, last)) : last.status = first.status :=
      (sends data first result last sent).2
    exact connected_callBack statuses execution (stays unfailing.1) (status_eq.trans connected)

end Callbacks

/-! ## The calls of the engine -/

/-- The methods of the class report a failure exactly if one of their writes failed, as long as
nothing else fails. -/
structure Enduring (cls : SocketClass σ ι) (holder : Holder σ η) (fair : ι → Prop) : Prop where
  onConnect : ∀ before after, holder.ready before.sub → cls.onConnect before = some after →
    ∃ shown, Passed holder before after shown ∧ ¬Blocked shown
  onRead : ∀ input chunk finish before result after, fair input → holder.ready before.sub →
    cls.onRead input chunk finish before = some (result, after) →
      Answers holder before result after
  onWrite : ∀ input before result after, fair input → holder.ready before.sub →
    cls.onWrite input before = some (result, after) → Answers holder before result after

namespace Enduring

variable {cls : SocketClass σ ι} {fair : ι → Prop} {before after : Socket σ}

/-- The loop of `RealRead`, by induction on the answers of the kernel. -/
theorem readLoop (enduring : Enduring cls holder fair) {reads : List (ReadResult × ι)}
    (transient : ∀ read ∈ reads, read.1.Transient ∧ fair read.2)
    (ready : holder.ready before.sub) (execution : readLoop cls reads before = some after) :
    Ends holder before after := by
  have free (fd : Int) (result : ReadResult) : ¬Blocked [.kernelRead fd result] :=
    not_blocked_of_mute (List.forall_mem_singleton.mpr (.kernelRead fd result))
  have asked (socket : Socket σ) (result : ReadResult) : Passed holder socket
      (socket.emit (.kernelRead socket.fd result)) [.kernelRead socket.fd result] :=
    .emit (Event.Mute.kernelRead socket.fd result).unheard socket
  induction reads generalizing before with
  | nil =>
      cases execution
      exact (asked before (.failed .eagain)).ends fun _ => free _ _
  | cons read reads ih =>
      obtain ⟨⟨head, fairly⟩, tail⟩ := List.forall_mem_cons.mp transient
      obtain ⟨result, input⟩ := read
      cases result with
      | failed errno =>
          have wouldBlock : SocketAssistant.errorWouldBlock errno = true := head
          rw [Socket.readLoop, if_pos wouldBlock] at execution
          cases execution
          exact (asked before (.failed errno)).ends fun _ => free _ _
      | got chunk =>
          have filled : ¬chunk.val.length = 0 :=
            fun empty => head (List.length_eq_zero_iff.mp empty)
          rw [Socket.readLoop, if_neg filled, if_neg (Nat.not_lt.mpr chunk.property),
            Option.bind_eq_bind, Option.bind_eq_some_iff] at execution
          obtain ⟨⟨value, middle⟩, onRead, execution⟩ := execution
          have told := asked before (.got chunk)
          have answers :=
            enduring.onRead input chunk _ _ value middle fairly (told.ready ready) onRead
          refine told.then_ends (fun _ => free _ _) ?_
          simp only at execution
          split at execution
          · rename_i fails
            cases execution
            exact answers.ends_of_neg fails
          · rename_i succeeds
            obtain ⟨shown, passed, unblocked⟩ := answers.free succeeds
            split at execution
            · exact passed.then_ends unblocked (ih tail (passed.ready ready) execution)
            · cases execution
              exact passed.ends unblocked

/-- `RealWrite` on a connected socket. -/
theorem writeData (enduring : Enduring cls holder fair) {input : ι} (fairly : fair input)
    (ready : holder.ready before.sub) (execution : writeData cls input before = some after) :
    Ends holder before after := by
  rw [Socket.writeData, Option.bind_eq_bind, Option.bind_eq_some_iff] at execution
  obtain ⟨⟨value, middle⟩, onWrite, execution⟩ := execution
  have answers := enduring.onWrite input before value middle fairly ready onWrite
  simp only at execution
  split at execution
  · rename_i fails
    cases execution
    exact answers.ends_of_neg fails
  · rename_i succeeds
    cases execution
    obtain ⟨shown, passed, unblocked⟩ := answers.free succeeds
    exact passed.ends unblocked

end Enduring

/-- The engine's calls in which every answer of the kernel is a success or that of a call that
would block. -/
def Call.Transient (fair : ι → Prop) : Call ι → Prop
  | .realRead reads => ∀ read ∈ reads, read.1.Transient ∧ fair read.2
  | .realWrite soError input => soError.Transient ∧ fair input
  | _ => False

/-- A call of the engine on a live connection that shows these events and in which nothing fails
but calls of the kernel that would block. -/
structure Ordeal (cls : SocketClass σ ι) (holder : Holder σ η) (fair : ι → Prop) (call : Call ι)
    (before : Socket σ) (shown : List Event) (after : Socket σ) : Prop where
  alive : before.status = .connecting ∨ before.status = .connected
  ready : holder.ready before.sub
  transient : call.Transient fair
  execution : perform cls call before = some after
  log_eq : after.log = before.log ++ shown
  unfailing : Unfailing holder before shown

/-- A connection in progress, with a pending error that `SocketFinishConnecting` does not count
among those of a call that would block. -/
def Misjudged (call : Call ι) (socket : Socket σ) : Prop :=
  socket.status = .connecting ∧ ∃ input, call = .realWrite (.pending .eagain) input

theorem Ends.given_up_iff {before after : Socket σ} {shown : List Event}
    (ends : Ends holder before after) (log_eq : after.log = before.log ++ shown)
    (unfailing : Unfailing holder before shown) (connected : before.status = .connected) :
    after.status = .disconnected ↔ Blocked shown := by
  obtain ⟨others, others_eq, verdict⟩ := ends
  obtain rfl : others = shown := List.append_cancel_left (others_eq.symm.trans log_eq)
  exact verdict unfailing connected

/-- An error that is still pending: `EAGAIN` ends the connection, and nothing is written. -/
theorem realWrite_pending {cls : SocketClass σ ι} {errno : Errno} {input : ι}
    {before after : Socket σ} {shown : List Event}
    (wouldBlock : SocketAssistant.errorWouldBlock errno = true)
    (connecting : before.status = .connecting)
    (execution : realWrite cls (.pending errno) input before = some after)
    (log_eq : after.log = before.log ++ shown) :
    ¬Blocked shown ∧ (after.status = .disconnected ↔ errno = .eagain) := by
  simp only [realWrite, connecting] at execution
  have free (status : Status) : ¬Blocked [.assigned status] :=
    not_blocked_of_mute (List.forall_mem_singleton.mpr (.assigned status))
  have waits (goesOn : after = before) : ¬Blocked shown ∧ after.status ≠ .disconnected := by
    subst goesOn
    obtain rfl : shown = [] := List.self_eq_append_right.mp log_eq
    exact ⟨blocked_nil, by rw [connecting]; decide⟩
  cases errno with
  | eagain =>
      rw [if_pos (by decide)] at execution
      cases execution
      obtain rfl : [.assigned .disconnected] = shown := List.append_cancel_left log_eq
      exact ⟨free .disconnected, iff_of_true rfl rfl⟩
  | eintr =>
      rw [if_neg (by decide), if_pos (by decide)] at execution
      obtain ⟨free, kept⟩ := waits (Option.some.inj execution).symm
      exact ⟨free, iff_of_false kept (by decide)⟩
  | einprogress =>
      rw [if_neg (by decide), if_pos (by decide)] at execution
      obtain ⟨free, kept⟩ := waits (Option.some.inj execution).symm
      exact ⟨free, iff_of_false kept (by decide)⟩
  | einval => exact absurd wouldBlock (by decide)
  | other code => exact absurd wouldBlock (by simp [SocketAssistant.errorWouldBlock])

namespace Enduring

variable {cls : SocketClass σ ι} {fair : ι → Prop} {before after : Socket σ} {shown : List Event}

/-- `RealRead` gives the connection up exactly if a `write` failed. -/
theorem realRead_given_up_iff (enduring : Enduring cls holder fair)
    {reads : List (ReadResult × ι)}
    (ordeal : Ordeal cls holder fair (.realRead reads) before shown after) :
    after.status = .disconnected ↔ Blocked shown := by
  have execution : realRead cls reads before = some after := ordeal.execution
  rcases ordeal.alive with connecting | connected
  · simp only [realRead, connecting] at execution
    cases execution
    obtain rfl : shown = [] := List.self_eq_append_right.mp ordeal.log_eq
    exact iff_of_false (by rw [connecting]; decide) blocked_nil
  · simp only [realRead, connected] at execution
    have ends := enduring.readLoop ordeal.transient ordeal.ready execution
    exact ends.given_up_iff ordeal.log_eq ordeal.unfailing connected

/-- Once the connection is established, `RealWrite` goes on like on a connected socket. -/
theorem established_given_up_iff (enduring : Enduring cls holder fair) {input : ι}
    (ordeal : Ordeal cls holder fair (.realWrite .clear input) before shown after)
    (connecting : before.status = .connecting) : after.status = .disconnected ↔ Blocked shown := by
  have execution : realWrite cls .clear input before = some after := ordeal.execution
  simp only [realWrite, connecting] at execution
  rw [if_neg (by decide), if_neg (by decide), Option.bind_eq_bind, Option.bind_eq_some_iff]
    at execution
  obtain ⟨middle, onConnect, execution⟩ := execution
  obtain ⟨told, passed, quiet⟩ :=
    enduring.onConnect (before.assign .connected) middle ordeal.ready onConnect
  have written := enduring.writeData ordeal.transient.2 (passed.ready ordeal.ready) execution
  obtain ⟨others, others_eq, verdict⟩ := passed.then_ends (fun _ => quiet) written
  have assigned : Passed holder before (before.assign .connected) [.assigned .connected] :=
    .of_unheard rfl (List.forall_mem_singleton.mpr trivial) rfl id fun _ => rfl
  have free : ¬Blocked [.assigned .connected] :=
    not_blocked_of_mute (List.forall_mem_singleton.mpr (.assigned .connected))
  have shown_eq : shown = [.assigned .connected] ++ others := by
    have whole := others_eq
    rw [log_assign, List.append_assoc] at whole
    exact List.append_cancel_left (ordeal.log_eq.symm.trans whole)
  have unfailing := ordeal.unfailing
  rw [shown_eq] at unfailing
  rw [verdict (assigned.unfailing_append.mp unfailing).2 rfl, shown_eq, blocked_append,
    or_iff_right free]

/-- A connection is given up exactly if a `write` failed or a pending `EAGAIN` was taken for a
failed connection. -/
theorem given_up_iff (enduring : Enduring cls holder fair) {call : Call ι}
    (ordeal : Ordeal cls holder fair call before shown after) :
    after.status = .disconnected ↔ Blocked shown ∨ Misjudged call before := by
  have transient := ordeal.transient
  cases call with
  | realRead reads =>
      rw [enduring.realRead_given_up_iff ordeal, or_iff_left]
      rintro ⟨-, input, other⟩
      cases other
  | realWrite soError input =>
      have execution : realWrite cls soError input before = some after := ordeal.execution
      rcases ordeal.alive with connecting | connected
      · cases soError with
        | unreadable => exact absurd transient.1 id
        | clear =>
            rw [enduring.established_given_up_iff ordeal connecting, or_iff_left]
            rintro ⟨-, other, same⟩
            cases same
        | pending errno =>
            obtain ⟨free, verdict⟩ :=
              realWrite_pending transient.1 connecting execution ordeal.log_eq
            rw [verdict, or_iff_right free, Misjudged]
            constructor
            · rintro rfl
              exact ⟨connecting, input, rfl⟩
            · rintro ⟨-, other, same⟩
              cases same
              rfl
      · simp only [realWrite, connected] at execution
        have ends := enduring.writeData transient.2 ordeal.ready execution
        rw [ends.given_up_iff ordeal.log_eq ordeal.unfailing connected, or_iff_left]
        rintro ⟨other, -⟩
        rw [connected] at other
        cases other
  | _ => exact absurd transient id

end Enduring
end Socket

/-! ## The plain transport -/

namespace Transmission

open Socket (Passed Answers Apart passed_callBack)

variable {η : Type}

/-- The plain transport is always ready. -/
def holder (handler : SocketHandler η) : Holder (Transmission η) η where
  handler
  state := Transmission.handler
  ready _ := True

section Methods

variable {handler : SocketHandler η} {before after : Socket (Transmission η)} {result : Int}

theorem apart_send {data : CharSpan} (execution : send data before = some (result, after)) :
    Apart (holder handler) before after ∧ after.status = before.status := by
  obtain ⟨sendBuffer, -, rfl⟩ := send_eq_some.mp execution
  exact ⟨⟨⟨_, rfl, List.forall_mem_singleton.mpr (.send data result)⟩, rfl, id⟩, rfl⟩

/-- Members other than the handler. -/
theorem passed_members {sub : Transmission η} (same : sub.handler = before.sub.handler) :
    Passed (holder handler) before { before with sub } [] :=
  .of_unheard (List.append_nil _).symm (List.forall_mem_nil _) same id id

theorem passed_told {event : Event} {calls : List PublicCall} {state : η}
    (execution : Socket.callBack send calls (setHandler state (before.emit event)) = some after)
    (followed : state = handler.follow before.sub.handler event)
    (stays : handler.Content before.sub.handler event → .close ∉ calls) :
    ∃ rest, Passed (holder handler) before after (event :: rest) ∧ ¬Blocked rest := by
  have log_eq : (setHandler state (before.emit event)).log = before.log ++ [event] := rfl
  exact passed_callBack (fun _ _ _ _ => apart_send) log_eq rfl followed id stays execution

theorem passed_onConnect (execution : onConnect handler before = some after) :
    ∃ shown, Passed (holder handler) before after shown ∧ ¬Blocked shown := by
  have calls : Socket.callBack send (handler.onConnect before.sub.handler).1
      (setHandler (handler.onConnect before.sub.handler).2 (before.emit .onConnect)) =
        some after := execution
  obtain ⟨rest, passed, free⟩ := passed_told calls rfl id
  exact ⟨_, passed, by simpa [Event.Refused] using free⟩

theorem answers_onRead {chunk : Chunk} {finish : Bool}
    (execution : onRead handler chunk finish before = some (result, after)) :
    Answers (holder handler) before result after := by
  obtain ⟨readBuffer, -, rfl, outcome⟩ := onRead_eq_some execution
  have stored : Passed (holder handler) before (setReadBuffer readBuffer before) [] :=
    passed_members rfl
  rcases outcome with ⟨-, rfl⟩ | ⟨value, next, -, answer, rfl⟩
  · exact stored.answers blocked_nil fun _ => Int.natCast_nonneg _
  · obtain ⟨-, calls⟩ := (readBufferPopData_eq_some handler).mp answer
    obtain ⟨rest, passed, free⟩ := passed_told calls rfl fun content => content.2
    have drained : Passed (holder handler) next
        (setReadBuffer (readBuffer.consume value).2 next) [] := passed_members rfl
    have offered := (stored.trans passed).trans drained
    exact offered.answers (by simpa [Event.Refused] using free) fun _ => Int.natCast_nonneg _

/-- `OnWrite` reports a failure exactly if its `write` failed. -/
theorem answers_onWrite {kernel : WriteResult} (transient : kernel.Transient)
    (execution : onWrite handler kernel before = some (result, after)) :
    Answers (holder handler) before result after := by
  rw [onWrite, SoundBuffer.getSize_eq] at execution
  split at execution
  · rename_i queued
    rw [Option.bind_eq_bind, Option.bind_eq_some_iff] at execution
    obtain ⟨⟨popped, popBuffer, next⟩, pop, execution⟩ := execution
    obtain ⟨popLen, answer, consumed⟩ := SoundBuffer.popHeadData_eq_some_iff.mp pop
    cases execution
    have offer_ne : before.sub.sendBuffer.unread ≠ [] :=
      fun empty => queued (List.length_eq_zero_iff.mpr empty)
    have written := Socket.answers_rawSend transient offer_ne (holder handler) before
    rw [Option.some.inj answer, ← (SoundBuffer.consume_spec popLen before.sub.sendBuffer).1,
      consumed] at written
    have drained : Passed (holder handler) next (setSendBuffer popBuffer next) [] :=
      passed_members rfl
    exact written.then drained
  · simp only [Option.bind_eq_bind, Option.bind_eq_some_iff] at execution
    obtain ⟨next, calls, execution⟩ := execution
    cases execution
    obtain ⟨rest, passed, free⟩ := passed_told calls rfl id
    exact passed.answers (by simpa [Event.Refused] using free) fun _ => le_rfl

end Methods

/-- The plain transport reports the failures of its writes, and only these. -/
theorem enduring (handler : SocketHandler η) :
    Socket.Enduring (socketClass handler) (holder handler) WriteResult.Transient where
  onConnect _ _ _ execution := passed_onConnect execution
  onRead _ _ _ _ _ _ _ _ execution := answers_onRead execution
  onWrite _ _ _ _ transient _ execution := answers_onWrite transient execution

/-- The connection is not given up, and only bytes that the kernel accepted left `send_`. -/
def Survives (before : Socket (Transmission η)) (shown : List Event)
    (after : Socket (Transmission η)) : Prop :=
  after.status ≠ .disconnected ∧
    shown.flatMap acceptedBy ++ after.sub.sendBuffer.unread =
      before.sub.sendBuffer.unread ++ shown.flatMap suppliedBy

/-- The queue is safe in any case, so the status decides. -/
theorem survives_iff {handler : SocketHandler η} {call : Socket.Call WriteResult}
    {before after : Socket (Transmission η)} {shown : List Event}
    (ordeal : Socket.Ordeal (socketClass handler) (holder handler) WriteResult.Transient call
      before shown after) :
    Survives before shown after ↔ ¬Blocked shown ∧ ¬Socket.Misjudged call before := by
  have staged : SendStaged before.log before.sub.sendBuffer.unread after :=
    Socket.perform_keeps (kept_sendStaged handler _ _) (fun _ _ => StreamStaged.bare)
      (fun _ _ _ _ staged sent => sendStaged_send staged sent) ordeal.execution (.start before)
  obtain ⟨others, others_eq, conserved⟩ := staged
  obtain rfl : others = shown := List.append_cancel_left (others_eq.symm.trans ordeal.log_eq)
  have safe : others.flatMap acceptedBy ++ after.sub.sendBuffer.unread =
      before.sub.sendBuffer.unread ++ others.flatMap suppliedBy := conserved
  rw [Survives, and_iff_left safe, ← not_or, not_iff_not]
  exact (enduring handler).given_up_iff ordeal

/-- Nothing to read. -/
theorem ordeal_idleRead (handler : SocketHandler η) {socket : Socket (Transmission η)}
    (connected : socket.status = .connected) :
    Socket.Ordeal (socketClass handler) (holder handler) WriteResult.Transient (.realRead [])
      socket [.kernelRead socket.fd (.failed .eagain)]
      (socket.emit (.kernelRead socket.fd (.failed .eagain))) where
  alive := Or.inr connected
  ready := trivial
  transient := List.forall_mem_nil _
  execution := by simp only [Socket.perform, Socket.realRead, connected, Socket.readLoop]
  log_eq := rfl
  unfailing := ⟨trivial, trivial⟩

/-- A full buffer of the kernel ends the connection while bytes are queued. -/
theorem exists_refusedWrite (handler : SocketHandler η) {socket : Socket (Transmission η)}
    (connected : socket.status = .connected) (waiting : socket.sub.sendBuffer.unread ≠ []) :
    ∃ shown after, Socket.Ordeal (socketClass handler) (holder handler) WriteResult.Transient
        (.realWrite .clear (.failed .eagain)) socket shown after ∧
      after.status = .disconnected := by
  have filled : (CharSpan.bytes socket.sub.sendBuffer.unread).nonEmpty = true := by
    simp [CharSpan.nonEmpty, waiting]
  have size_ne : socket.sub.sendBuffer.getSize ≠ 0 := by
    rw [SoundBuffer.getSize_eq]
    exact fun empty => waiting (List.length_eq_zero_iff.mp empty)
  have answer : writeBufferPopData (.failed .eagain) socket.sub.sendBuffer.unread socket =
      some (-1, socket.emit (.kernelWrite socket.fd socket.sub.sendBuffer.unread (-1))) := by
    rw [writeBufferPopData, Socket.rawSend_eq filled]
    rfl
  have consumed : (socket.sub.sendBuffer.consume (-1)).1 = -1 := by
    rw [(SoundBuffer.consume_spec _ _).1, AutoGrowBuffer.popResult, if_pos (Or.inl (by decide))]
  have written : (socketClass handler).onWrite (.failed .eagain) socket = some (-1,
      setSendBuffer (socket.sub.sendBuffer.consume (-1)).2
        (socket.emit (.kernelWrite socket.fd socket.sub.sendBuffer.unread (-1)))) := by
    change onWrite handler (.failed .eagain) socket = _
    rw [onWrite, if_pos size_ne, SoundBuffer.popHeadData, answer]
    simp [consumed]
  refine ⟨[.kernelWrite socket.fd socket.sub.sendBuffer.unread (-1), .assigned .disconnected],
    (setSendBuffer (socket.sub.sendBuffer.consume (-1)).2
      (socket.emit (.kernelWrite socket.fd socket.sub.sendBuffer.unread (-1)))).assign
        .disconnected, ?_, rfl⟩
  refine ⟨Or.inr connected, trivial, ⟨trivial, rfl⟩, ?_, ?_, trivial, trivial, trivial⟩
  · simp only [Socket.perform, Socket.realWrite, connected, Socket.writeData, written]
    rfl
  · simp [setSendBuffer]

end Transmission
end NetworkBase
