import NetworkBase.Library.Ledger
import NetworkBase.Library.PartialRun
import NetworkBase.Tool.SoundBuffer
import NetworkBase.Transport.SocketHandler

/-!
# Byte streams through a queue of a socket

A queue of a subclass is a stage of a byte stream: some events of the log let bytes out of it, some
bring bytes in.  `StreamStaged` says that the queue holds exactly the bytes in between.  The public
methods of the base class show none of these events, so a subclass has to look at its own methods
only.
-/

namespace NetworkBase

/-- An event the base class shows on its own account. -/
def Event.Plain : Event → Prop
  | .assigned _ => True
  | .realConnect => True
  | .opened _ => True
  | _ => False

/-- The bytes the kernel accepted in an event. -/
def acceptedBy : Event → List UInt8
  | .kernelWrite _ buf result => buf.take result.toNat
  | _ => []

/-- The bytes the handler consumed in an event. -/
def consumedBy : Event → List UInt8
  | .onData offer result => offer.take (AutoGrowBuffer.popCount result offer.length)
  | _ => []

/-- The offer of an event. -/
def offeredBy : Event → List (List UInt8)
  | .onData offer _ => [offer]
  | _ => []

/-- Nothing is consumed without an offer. -/
theorem consumedBy_of_unoffered (event : Event) (unoffered : offeredBy event = []) :
    consumedBy event = [] := by
  cases event with
  | onData offer answer => exact absurd unoffered (List.cons_ne_nil _ _)
  | _ => rfl

theorem offeredBy_of_quiet (event : Event) (ok : Socket.quiet event) : offeredBy event = [] := by
  cases event with
  | onData offer answer => exact absurd ok id
  | _ => rfl

/-- Two byte streams read off the log, to which the base class contributes nothing. -/
structure StreamView where
  /-- The bytes an event lets out of the queue. -/
  outOf : Event → List UInt8
  /-- The bytes an event brings into the queue. -/
  inpOf : Event → List UInt8
  plain : ∀ event, event.Plain → outOf event = [] ∧ inpOf event = []

/-- An event without bytes. -/
def StreamView.Silent (view : StreamView) (event : Event) : Prop :=
  view.outOf event = [] ∧ view.inpOf event = []

variable {σ ι : Type}

namespace Socket

/-- The base class acted alone: the subclass is as it was, and only plain events were shown. -/
def Bare (before after : Socket σ) : Prop :=
  after.sub = before.sub ∧
    ∃ shown, after.log = before.log ++ shown ∧ ∀ event ∈ shown, event.Plain

namespace Bare

theorem of_log_eq {before after : Socket σ} (sub_eq : after.sub = before.sub)
    (log_eq : after.log = before.log) : Bare before after :=
  ⟨sub_eq, [], log_eq.trans (List.append_nil _).symm, by simp⟩

theorem trans {before middle after : Socket σ} (first : Bare before middle)
    (rest : Bare middle after) : Bare before after := by
  obtain ⟨sub_middle, shown, middle_eq, plain⟩ := first
  obtain ⟨sub_after, more, after_eq, more_plain⟩ := rest
  refine ⟨sub_after.trans sub_middle, shown ++ more, ?_, ?_⟩
  · rw [after_eq, middle_eq, List.append_assoc]
  · exact fun event mem => (List.mem_append.mp mem).elim (plain event) (more_plain event)

theorem assign (status : Status) (socket : Socket σ) : Bare socket (socket.assign status) :=
  ⟨rfl, [.assigned status], rfl, by simp [Event.Plain]⟩

theorem connect (now timeoutMs : Nat) (socket : Socket σ) :
    Bare socket (socket.connect now timeoutMs) := by
  have sub_eq := (connect_frame now timeoutMs socket).2
  rcases connect_cases now timeoutMs socket with ⟨-, -, log_eq⟩ | ⟨-, log_eq⟩
  · exact ⟨sub_eq, [.assigned .startConnect], log_eq, by simp [Event.Plain]⟩
  · exact of_log_eq sub_eq log_eq

theorem openSocket (kernel : ConnectKernel) (socket : Socket σ) :
    Bare socket (socket.openSocket kernel) := by
  have sub_eq := sub_openSocket kernel socket
  rcases openSocket_cases kernel socket with ⟨-, -, log_eq⟩ | ⟨-, -, log_eq⟩
  · exact ⟨sub_eq, _, log_eq, by simp [Event.Plain]⟩
  · exact ⟨sub_eq, _, log_eq, by simp [Event.Plain]⟩

theorem realConnect (kernel : ConnectKernel) (socket : Socket σ) :
    Bare socket (socket.realConnect kernel) := by
  by_cases succeeds : socket.AttemptSucceeds kernel
  · rw [realConnect_of_succeeds succeeds]
    exact (openSocket kernel socket).trans (assign .connecting _)
  · rw [realConnect_of_fails succeeds]
    exact (openSocket kernel socket).trans (assign .disconnected _)

end Bare

variable {inv : Socket σ → Prop}

/-- The calls of a callback keep what `Send` and the base class alone keep. -/
theorem callBack_keeps {send : CharSpan → Socket σ → Option (Int × Socket σ)}
    (bare : ∀ before after, inv before → Bare before after → inv after)
    (sends : ∀ data before result after, inv before → send data before = some (result, after) →
      inv after)
    {calls : List PublicCall} {before after : Socket σ}
    (execution : callBack send calls before = some after) (initial : inv before) : inv after :=
  callBack_preserves inv sends
    (fun socket kept => bare _ _ kept (.assign .disconnected socket))
    (fun now timeoutMs socket kept => bare _ _ kept (.connect now timeoutMs socket))
    (fun _ _ kept => bare _ _ kept (.of_log_eq rfl rfl))
    (fun _ _ _ kept => bare _ _ kept (.of_log_eq rfl rfl))
    execution initial

/-- Every call keeps what the virtual methods, `Send` and the base class alone keep. -/
theorem perform_keeps {cls : SocketClass σ ι} (kept : Kept cls inv)
    (bare : ∀ before after, inv before → Bare before after → inv after)
    (sends : ∀ data before result after, inv before →
      cls.send data before = some (result, after) → inv after)
    {call : Call ι} {before after : Socket σ} (execution : perform cls call before = some after)
    (initial : inv before) : inv after := by
  cases call with
  | setProtocol protocol =>
      cases execution
      exact bare _ _ initial (.of_log_eq rfl rfl)
  | setIpPort ip port =>
      cases execution
      exact bare _ _ initial (.of_log_eq rfl rfl)
  | connect now timeoutMs =>
      cases execution
      exact bare _ _ initial (.connect now timeoutMs before)
  | close =>
      cases execution
      exact bare _ _ initial (.assign .disconnected before)
  | send data =>
      rw [perform, Option.map_eq_some_iff] at execution
      obtain ⟨⟨result, next⟩, sent, rfl⟩ := execution
      exact sends data before result next initial sent
  | realConnect kernel =>
      cases execution
      exact bare _ _ initial (.realConnect kernel before)
  | realRead reads => exact kept.realRead execution initial
  | realWrite soError input => exact kept.realWrite execution initial

/-- Every run of calls keeps what the virtual methods, `Send` and the base class alone keep. -/
theorem run_keeps {cls : SocketClass σ ι} (kept : Kept cls inv)
    (bare : ∀ before after, inv before → Bare before after → inv after)
    (sends : ∀ data before result after, inv before →
      cls.send data before = some (result, after) → inv after)
    {calls : List (Call ι)} {before after : Socket σ}
    (execution : PartialRun.run (perform cls) calls before = some after)
    (initial : inv before) : inv after :=
  PartialRun.invariant inv (fun _ _ _ initial step => perform_keeps kept bare sends step initial)
    execution initial

end Socket

/-- Since the log was `base` and the queue held `held₀`, every byte was conserved. -/
def StreamStaged (view : StreamView) (queue : σ → SoundBuffer) (base : List Event)
    (held₀ : List UInt8) (socket : Socket σ) : Prop :=
  Staged view.outOf view.inpOf base held₀ socket.log (queue socket.sub).unread

namespace StreamStaged

variable {view : StreamView} {queue : σ → SoundBuffer} {base : List Event} {held₀ : List UInt8}

theorem start (socket : Socket σ) :
    StreamStaged view queue socket.log (queue socket.sub).unread socket :=
  Staged.start view.outOf view.inpOf _ _

/-- A fresh queue on a fresh log. -/
theorem construct {sub : σ} {defaultLen : Nat} (fresh : queue sub = .construct defaultLen) :
    StreamStaged view queue [] [] (Socket.construct sub) := by
  have empty : (queue (Socket.construct sub).sub).unread = [] := by
    rw [Socket.construct, fresh, SoundBuffer.construct_unread]
  rw [StreamStaged, empty]
  exact Staged.start view.outOf view.inpOf [] []

/-- A state with the same queue, after events without bytes. -/
theorem extend {before after : Socket σ} (staged : StreamStaged view queue base held₀ before)
    (queue_eq : queue after.sub = queue before.sub) {shown : List Event}
    (log_eq : after.log = before.log ++ shown) (silent : ∀ event ∈ shown, view.Silent event) :
    StreamStaged view queue base held₀ after := by
  rw [StreamStaged, queue_eq, log_eq]
  exact staged.neutral silent

/-- A state with the same queue and the same log. -/
theorem congr {before after : Socket σ} (staged : StreamStaged view queue base held₀ before)
    (queue_eq : queue after.sub = queue before.sub) (log_eq : after.log = before.log) :
    StreamStaged view queue base held₀ after :=
  staged.extend queue_eq (log_eq.trans (List.append_nil _).symm) (by simp)

theorem emit {socket : Socket σ} (staged : StreamStaged view queue base held₀ socket)
    {event : Event} (silent : view.Silent event) :
    StreamStaged view queue base held₀ (socket.emit event) := by
  refine staged.extend rfl rfl ?_
  intro shown mem
  obtain rfl := List.mem_singleton.mp mem
  exact silent

/-- The base class alone has no part in a stream. -/
theorem bare {before after : Socket σ} (staged : StreamStaged view queue base held₀ before)
    (alone : Socket.Bare before after) : StreamStaged view queue base held₀ after := by
  obtain ⟨sub_eq, shown, log_eq, plain⟩ := alone
  exact staged.extend (by rw [sub_eq]) log_eq fun event mem => view.plain event (plain event mem)

theorem assign {socket : Socket σ} (staged : StreamStaged view queue base held₀ socket)
    (status : Status) : StreamStaged view queue base held₀ (socket.assign status) :=
  staged.bare (.assign status socket)

/-- The calls of a callback conserve a stream that `Send` conserves. -/
theorem callBack {send : CharSpan → Socket σ → Option (Int × Socket σ)}
    (sends : ∀ data before result after, StreamStaged view queue base held₀ before →
      send data before = some (result, after) → StreamStaged view queue base held₀ after)
    {calls : List PublicCall} {before after : Socket σ}
    (execution : Socket.callBack send calls before = some after)
    (staged : StreamStaged view queue base held₀ before) :
    StreamStaged view queue base held₀ after :=
  Socket.callBack_keeps (fun _ _ => bare) sends execution staged

/-- Every run of calls conserves a stream that the virtual methods conserve. -/
theorem run {cls : SocketClass σ ι}
    (kept : Socket.Kept cls (StreamStaged view queue base held₀))
    (sends : ∀ data before result after, StreamStaged view queue base held₀ before →
      cls.send data before = some (result, after) → StreamStaged view queue base held₀ after)
    {calls : List (Socket.Call ι)} {before after : Socket σ}
    (execution : PartialRun.run (Socket.perform cls) calls before = some after)
    (staged : StreamStaged view queue base held₀ before) :
    StreamStaged view queue base held₀ after :=
  Socket.run_keeps kept (fun _ _ => bare) sends execution staged

end StreamStaged
end NetworkBase
