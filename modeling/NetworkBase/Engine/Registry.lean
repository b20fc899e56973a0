import NetworkBase.Engine.LockDiscipline
import NetworkBase.Engine.Observation
import NetworkBase.Transport.Descriptor

/-!
# The registered descriptors

`io_` taken as a set of descriptors.  A round calls `DeleteFd` with the value of a comparison, so
with 0 or 1, and it never calls `AddFd`, since the scan puts no socket among the connecting ones.
So the set is right after a round exactly if nothing had to be changed but 0 and 1.
-/

namespace NetworkBase
namespace Engine

variable {σ ι τ : Type} {cls : SocketClass σ ι} {mux : IoMultiplexing τ} {env : Environment ι}
  {registered : τ → Set Int} {before after : Engine σ τ}

/-- `AddFd` and `DeleteFd` keep a set of descriptors, which nothing else changes. -/
structure IdealRegistry (mux : IoMultiplexing τ) (registered : τ → Set Int) : Prop where
  addFd_succeeds : ∀ fd read write io, 0 ≤ (mux.addFd fd read write io).1
  addFd : ∀ fd read write io, registered (mux.addFd fd read write io).2 = insert fd (registered io)
  deleteFd : ∀ fd io, registered (mux.deleteFd fd io).2 = registered io \ {fd}
  dispatch : ∀ endless timeOutMs io,
    registered (mux.dispatch endless timeOutMs io).2 = registered io
  sleep : ∀ timeMs io, registered (mux.sleep timeMs io).2 = registered io
  fdCheck : ∀ fd io, registered (mux.fdCheck fd io).2 = registered io

/-- The registered descriptors are those of the polled sockets, which were found connecting or
connected at some time. -/
structure Registers (registered : τ → Set Int) (polled : Nat × SocketPtr → Prop)
    (engine : Engine σ τ) : Prop where
  registered_iff : ∀ fd, fd ∈ registered engine.io ↔
    ∃ entry ∈ engine.sockets.entries, polled entry ∧ (engine.heap entry.2).fd = fd
  status : ∀ entry ∈ engine.sockets.entries, polled entry →
    (engine.heap entry.2).status ≠ .init ∧ (engine.heap entry.2).status ≠ .startConnect

/-- After a round the registered descriptors are those of the sockets that the scan found connecting
or connected, and every socket that was disconnected had its descriptor deregistered before. -/
structure Tracks (registered : τ → Set Int) (seen : List (Status × Nat × SocketPtr))
    (before after : Engine σ τ) : Prop where
  registered_iff : ∀ fd, fd ∈ registered after.io ↔
    ∃ entry ∈ after.sockets.entries,
      entry ∈ withStatus (fun status => status = .connecting ∨ status = .connected) seen ∧
        (after.heap entry.2).fd = fd
  deregistered : ∀ events early late socket, after.trace = before.trace ++ events →
    events = early ++ .called .disconnect socket :: late →
      (before.heap socket).fd ∈ registered before.io →
        ∃ result, .deleteFd (before.heap socket).fd result ∈ early

/-- The descriptor that `DeleteFd` gets for a disconnected socket. -/
def deletedFor (engine : Engine σ τ) (entry : Nat × SocketPtr) : Int :=
  if (engine.heap entry.2).fd < 0 then 1 else 0

/-- Nothing has to be registered or deregistered but what `DeleteFd` gets. -/
structure Settled (registered : τ → Set Int) (seen : List (Status × Nat × SocketPtr))
    (before : Engine σ τ) : Prop where
  connecting : withStatus (· = .connecting) seen = []
  connected : ∀ fd,
    (fd ∈ registered before.io ∧
        ∀ entry ∈ withStatus (· = .disconnected) seen, before.deletedFor entry ≠ fd) ↔
      ∃ entry ∈ withStatus (· = .connected) seen, (before.heap entry.2).fd = fd
  disconnected : ∀ early entry late,
    withStatus (· = .disconnected) seen = early ++ entry :: late →
      (before.heap entry.2).fd ∈ registered before.io →
        ∃ gone ∈ early ++ [entry], before.deletedFor gone = (before.heap entry.2).fd

/-! ## What a step closes -/

/-- A call of `DeleteFd` or `RealDisconnect`. -/
def closing : EngineEvent → Option (Int ⊕ SocketPtr)
  | .deleteFd fd _ => some (.inl fd)
  | .called .disconnect socket => some (.inr socket)
  | _ => none

/-- From one state to the other these calls were made, and nothing else changed the registered
descriptors. -/
structure Closes (registered : τ → Set Int) (calls : List (Int ⊕ SocketPtr))
    (before after : Engine σ τ) : Prop where
  registered_iff : ∀ fd, fd ∈ registered after.io ↔ fd ∈ registered before.io ∧ .inl fd ∉ calls
  trace : ∃ events, after.trace = before.trace ++ events ∧ events.filterMap closing = calls

namespace Closes

theorem trans {middle : Engine σ τ} {first second : List (Int ⊕ SocketPtr)}
    (early : Closes registered first before middle)
    (late : Closes registered second middle after) :
    Closes registered (first ++ second) before after := by
  obtain ⟨early_events, early_eq, early_calls⟩ := early.trace
  obtain ⟨late_events, late_eq, late_calls⟩ := late.trace
  constructor
  · intro fd
    rw [late.registered_iff, early.registered_iff, List.mem_append, not_or, and_assoc]
  · refine ⟨early_events ++ late_events, ?_, ?_⟩
    · rw [late_eq, early_eq, List.append_assoc]
    · rw [List.filterMap_append, early_calls, late_calls]

/-- A step that closes nothing. -/
theorem of_events {events : List EngineEvent}
    (registered_eq : registered after.io = registered before.io)
    (trace_eq : after.trace = before.trace ++ events) (nothing : events.filterMap closing = []) :
    Closes registered [] before after := by
  refine ⟨fun fd => ?_, events, trace_eq, nothing⟩
  rw [registered_eq]
  exact (and_iff_left List.not_mem_nil).symm

theorem of_same (registered_eq : registered after.io = registered before.io)
    (trace_eq : after.trace = before.trace) : Closes registered [] before after :=
  of_events registered_eq (trace_eq.trans (List.append_nil _).symm) rfl

theorem refl (engine : Engine σ τ) : Closes registered [] engine engine := of_same rfl rfl

theorem record (registered : τ → Set Int) (event : EngineEvent) (engine : Engine σ τ)
    (nothing : closing event = none) : Closes registered [] engine (engine.record event) :=
  of_events rfl rfl (by rw [List.filterMap_cons_none nothing, List.filterMap_nil])

theorem of_outside (outside : Outside before after) : Closes registered [] before after := by
  obtain ⟨events, trace_eq, booked⟩ := outside.trace
  refine of_events (congrArg registered outside.io) trace_eq ?_
  rw [List.filterMap_eq_nil_iff]
  intro event mem
  cases event with
  | lock thread => rfl
  | unlock thread => rfl
  | added fd socket => rfl
  | _ => exact absurd (booked _ mem) id

theorem callSocket {call : RealCall} {method : Socket σ → Option (Socket σ)} {socket : SocketPtr}
    (other : call ≠ .disconnect)
    (execution : callSocket cls env call method socket before = some after) :
    Closes registered [] before after := by
  have shown : Closes registered [] before (before.record (.called call socket)) := by
    refine record registered _ before ?_
    cases call with
    | disconnect => exact absurd rfl other
    | _ => rfl
  exact shown.trans (of_outside (Outside.callSocket execution))

theorem realDisconnect {socket : SocketPtr}
    (execution : realDisconnect cls env socket before = some after) :
    Closes registered [.inr socket] before after := by
  have shown : Closes registered [.inr socket] before
      (before.record (.called .disconnect socket)) := by
    refine ⟨fun fd => ?_, [.called .disconnect socket], rfl, rfl⟩
    simp [Engine.record]
  exact shown.trans (of_outside (Outside.callSocket execution))

theorem deleteFd (ideal : IdealRegistry mux registered) (fd : Int) (engine : Engine σ τ) :
    Closes registered [.inl fd] engine (deleteFd mux fd engine).2 := by
  refine ⟨fun other => ?_, [.deleteFd fd (Engine.deleteFd mux fd engine).1], rfl, rfl⟩
  have removed : registered (Engine.deleteFd mux fd engine).2.io = registered engine.io \ {fd} :=
    ideal.deleteFd fd engine.io
  simp [removed]

/-- Starting connections and serving sockets closes nothing. -/
theorem serves (cls : SocketClass σ ι) (env : Environment ι)
    (ideal : IdealRegistry mux registered) :
    Serves cls mux env (fun _ _ => True)
      (Closes registered [] : Engine σ τ → Engine σ τ → Prop) where
  refl := refl
  trans _ _ _ := trans
  interrupt _ _ execution := of_outside (Outside.interrupt execution)
  dispatch timeOutMs engine := of_same (ideal.dispatch false timeOutMs engine.io) rfl
  fdCheck fd engine := of_same (ideal.fdCheck fd engine.io) rfl
  connect _ _ _ _ execution := callSocket (by decide) execution
  write _ _ _ _ execution := callSocket (by decide) execution
  read _ _ _ _ execution := callSocket (by decide) execution

theorem wake (ideal : IdealRegistry mux registered)
    (execution : wake cls mux env before = some after) : Closes registered [] before after := by
  rw [Engine.wake, Option.bind_eq_bind, Option.bind_eq_some_iff] at execution
  obtain ⟨middle, interrupted, finished⟩ := execution
  cases finished
  have slept : Closes registered [] before (sleep mux before) :=
    of_same (ideal.sleep kLoopTimeIntervalMs before.io) rfl
  exact (slept.trans (of_outside (Outside.interrupt interrupted))).trans
    (of_outside (Outside.lock .worker middle))

theorem waitForSockets {ret : Int} (ideal : IdealRegistry mux registered)
    (execution : waitForSockets cls mux env before = some (ret, after)) :
    Closes registered [] before after :=
  waitForSockets_keeps (Closes registered []) (fun _ _ _ => trans)
    (fun _ _ execution => of_outside (Outside.interrupt execution))
    (fun timeOutMs engine => of_same (ideal.dispatch false timeOutMs engine.io) rfl)
    (fun fd engine => of_same (ideal.fdCheck fd engine.io) rfl) (fun _ _ => of_same rfl rfl)
    execution

end Closes

/-! ## The descriptors of the sockets -/

/-- A call into a socket that keeps its descriptor keeps all descriptors. -/
theorem callSocket_fd {call : RealCall} {method : Socket σ → Option (Socket σ)} {socket : SocketPtr}
    (keeps : ∀ next, method (before.heap socket) = some next → next.fd = (before.heap socket).fd)
    (execution : callSocket cls env call method socket before = some after) (other : SocketPtr) :
    (after.heap other).fd = (before.heap other).fd := by
  obtain ⟨⟨next, called, steps⟩, others⟩ := callSocket_object execution
  by_cases same : other = socket
  · subst same
    exact steps.fd_eq.trans (keeps next called)
  · exact (others other same).fd_eq

/-- Only a `RealConnect` of the socket changes its descriptor. -/
theorem serves_fd (cls : SocketClass σ ι) (mux : IoMultiplexing τ) (env : Environment ι)
    (socket : SocketPtr) :
    Serves cls mux env (fun call other => call = .connect → other ≠ socket)
      fun (before after : Engine σ τ) => (after.heap socket).fd = (before.heap socket).fd where
  refl _ := rfl
  trans _ _ _ first second := second.trans first
  interrupt _ _ execution := (interrupt_object execution socket).fd_eq
  dispatch _ _ := rfl
  fdCheck _ _ := rfl
  connect _ _ _ listed execution :=
    ((callSocket_object execution).2 socket (listed rfl).symm).fd_eq
  write _ _ _ _ execution :=
    callSocket_fd (fun _ written => (Socket.SameDescriptor.realWrite written).fd) execution socket
  read _ _ _ _ execution :=
    callSocket_fd (fun _ read => (Socket.SameDescriptor.realRead read).fd) execution socket

/-- Between these times the kernel answered a call of `socket` with this descriptor. -/
def Answered (env : Environment ι) (first last : Nat) (fd : Int) : Prop :=
  ∃ time kind, first ≤ time ∧ time < last ∧ (env.connect time).socket kind = fd

theorem Answered.within {first last first' last' : Nat} {fd : Int}
    (answered : Answered env first last fd) (begins : first' ≤ first) (ends : last ≤ last') :
    Answered env first' last' fd := by
  obtain ⟨time, kind, after_first, before_last, answer⟩ := answered
  exact ⟨time, kind, begins.trans after_first, before_last.trans_le ends, answer⟩

theorem time_lt_of_callSocket {call : RealCall} {method : Socket σ → Option (Socket σ)}
    {socket : SocketPtr} (execution : callSocket cls env call method socket before = some after) :
    before.time < after.time := by
  rw [callSocket_time execution]
  exact Nat.lt_succ_self before.time

theorem answered_of_realConnect {socket : SocketPtr}
    (execution : realConnect cls env socket before = some after) :
    Answered env before.time after.time (after.heap socket).fd := by
  obtain ⟨⟨next, called, steps⟩, -⟩ := callSocket_object execution
  obtain ⟨kind, opened⟩ :=
    (Socket.realConnect_opens (env.connect before.time) (before.heap socket)).1
  rw [steps.fd_eq, ← Option.some.inj called]
  exact ⟨before.time, kind, Nat.le_refl _, time_lt_of_callSocket execution, opened.symm⟩

/-- Time went on, and the socket kept its descriptor or got one from the kernel meanwhile. -/
structure Opens (env : Environment ι) (socket : SocketPtr) (before after : Engine σ τ) : Prop where
  time_le : before.time ≤ after.time
  fd : (after.heap socket).fd = (before.heap socket).fd ∨
    Answered env before.time after.time (after.heap socket).fd

namespace Opens

variable {socket : SocketPtr}

theorem trans {middle : Engine σ τ} (early : Opens env socket before middle)
    (late : Opens env socket middle after) : Opens env socket before after := by
  refine ⟨early.time_le.trans late.time_le, ?_⟩
  rcases late.fd with same | answered
  · rw [same]
    exact early.fd.imp_right fun answered => answered.within (Nat.le_refl _) late.time_le
  · exact .inr (answered.within early.time_le (Nat.le_refl _))

/-- A call into a socket that keeps its descriptor. -/
theorem callSocket {call : RealCall} {method : Socket σ → Option (Socket σ)} {other : SocketPtr}
    (keeps : ∀ next, method (before.heap other) = some next → next.fd = (before.heap other).fd)
    (execution : callSocket cls env call method other before = some after) :
    Opens env socket before after :=
  ⟨(time_lt_of_callSocket execution).le, .inl (callSocket_fd keeps execution socket)⟩

/-- What the worker does behind the scan. -/
theorem attends (cls : SocketClass σ ι) (mux : IoMultiplexing τ) (env : Environment ι)
    (socket : SocketPtr) :
    Attends cls mux env (fun _ _ => True)
      (Opens env socket : Engine σ τ → Engine σ τ → Prop) where
  refl _ := ⟨Nat.le_refl _, .inl rfl⟩
  trans _ _ _ := trans
  interrupt _ _ execution :=
    ⟨(allows_time cls).interrupt execution, .inl (interrupt_object execution socket).fd_eq⟩
  dispatch _ _ := ⟨Nat.le_refl _, .inl rfl⟩
  fdCheck _ _ := ⟨Nat.le_refl _, .inl rfl⟩
  deleteFd _ _ := ⟨Nat.le_refl _, .inl rfl⟩
  connect other before after _ execution := by
    refine ⟨(time_lt_of_callSocket execution).le, ?_⟩
    by_cases same : socket = other
    · subst same
      exact .inr (answered_of_realConnect execution)
    · exact .inl ((callSocket_object execution).2 socket same).fd_eq
  disconnect _ _ _ _ execution :=
    callSocket (fun _ closed => (Socket.realDisconnect_closes closed).1) execution
  write _ _ _ _ execution :=
    callSocket (fun _ written => (Socket.SameDescriptor.realWrite written).fd) execution
  read _ _ _ _ execution :=
    callSocket (fun _ read => (Socket.SameDescriptor.realRead read).fd) execution

end Opens

theorem startConnects_answered (mux : IoMultiplexing τ) {entries : List (Nat × SocketPtr)}
    (execution : startConnects cls env entries before = some after) :
    ∀ entry ∈ entries, Answered env before.time after.time (after.heap entry.2).fd := by
  induction entries generalizing before with
  | nil => exact fun _ mem => absurd mem List.not_mem_nil
  | cons entry entries ih =>
      simp only [startConnects, Option.bind_eq_bind, Option.bind_eq_some_iff] at execution
      obtain ⟨first, interrupted, second, connected, rest⟩ := execution
      have first_time : before.time ≤ first.time := (allows_time cls).interrupt interrupted
      have second_time := (time_lt_of_callSocket connected).le
      have later := (Opens.attends cls mux env entry.2).startConnects (fun _ _ => trivial) rest
      refine List.forall_mem_cons.mpr ⟨?_, fun other mem =>
        (ih rest other mem).within (first_time.trans second_time) (Nat.le_refl _)⟩
      rcases later.fd with same | answered
      · rw [same]
        exact (answered_of_realConnect connected).within first_time later.time_le
      · exact answered.within (first_time.trans second_time) (Nat.le_refl _)

/-- The loop over the disconnected sockets calls `DeleteFd` and `RealDisconnect` for each, and
changes no descriptor. -/
theorem closeInvalid_closes {entries : List (Nat × SocketPtr)}
    (ideal : IdealRegistry mux registered)
    (execution : closeInvalid cls mux env entries before = some after) :
    Closes registered (entries.flatMap fun entry => [.inl (before.deletedFor entry), .inr entry.2])
        before after ∧
      ∀ socket, (after.heap socket).fd = (before.heap socket).fd := by
  induction entries generalizing before with
  | nil =>
      cases execution
      exact ⟨.refl _, fun _ => rfl⟩
  | cons entry entries ih =>
      simp only [closeInvalid, Option.bind_eq_bind, Option.bind_eq_some_iff] at execution
      obtain ⟨first, interrupted, second, disconnected, rest⟩ := execution
      have first_fd : ∀ socket, (first.heap socket).fd = (before.heap socket).fd :=
        fun socket => (interrupt_object interrupted socket).fd_eq
      have second_fd : ∀ socket, (second.heap socket).fd = (before.heap socket).fd :=
        fun socket => (callSocket_fd (fun _ closed => (Socket.realDisconnect_closes closed).1)
          disconnected socket).trans (first_fd socket)
      obtain ⟨closes, rest_fd⟩ := ih rest
      have deleted_eq : ∀ other, second.deletedFor other = before.deletedFor other := by
        intro other
        rw [deletedFor, deletedFor, second_fd]
      have called := (Closes.of_outside (Outside.interrupt interrupted)).trans
        ((Closes.deleteFd ideal (if (first.heap entry.2).fd < 0 then 1 else 0) first).trans
          (.realDisconnect disconnected))
      rw [first_fd] at called
      simp only [deleted_eq] at closes
      exact ⟨called.trans closes, fun socket => (rest_fd socket).trans (second_fd socket)⟩

/-! ## A whole round -/

/-- The calls of a round for the disconnected sockets it finds. -/
def closingCalls (engine : Engine σ τ) (gone : List (Nat × SocketPtr)) : List (Int ⊕ SocketPtr) :=
  gone.flatMap fun entry => [.inl (engine.deletedFor entry), .inr entry.2]

/-- What a round with these sights does about the descriptors. -/
structure Iteration (registered : τ → Set Int) (env : Environment ι)
    (seen : List (Status × Nat × SocketPtr)) (before after : Engine σ τ) : Prop where
  present : ∀ entry ∈ before.sockets.entries, ∃ status, (status, entry) ∈ seen
  status : ∀ sight ∈ seen, (before.heap sight.2.2).status.Moves sight.1
  stays : ∀ entry ∈ withStatus (fun status => status = .connecting ∨ status = .connected) seen,
    entry ∈ after.sockets.entries
  connected : ∀ entry ∈ withStatus (· = .connected) seen,
    (after.heap entry.2).fd = (before.heap entry.2).fd
  connecting : ∀ entry ∈ withStatus (· = .connecting) seen,
    Answered env before.time after.time (after.heap entry.2).fd
  closes :
    Closes registered (before.closingCalls (withStatus (· = .disconnected) seen)) before after

namespace Round

variable {seen : List (Status × Nat × SocketPtr)} {found : Scan} {ret : Int}
  {awake scanned closed started : Engine σ τ}

/-- A socket that was found connected is no socket that starts to connect. -/
theorem ne_of_connected (round : Round cls mux env seen found ret before awake scanned closed
    started after) {entry other : Nat × SocketPtr}
    (connected : entry ∈ withStatus (· = .connected) seen)
    (starting : other ∈ found.startConnect.entries) : other.2 ≠ entry.2 := by
  intro same
  rw [round.startConnect] at starting
  obtain ⟨status, mem, status_eq⟩ := mem_withStatus.mp connected
  obtain ⟨other_status, other_mem, other_eq⟩ := mem_withStatus.mp starting
  have moves := round.status _ mem
  have other_moves := round.status _ other_mem
  rw [of_decide_eq_true status_eq] at moves
  have present : (before.heap entry.2).status = .connected := by
    rcases moves with same | gone | ⟨-, started⟩
    · exact same.symm
    · cases gone
    · cases started
  rw [same, present] at other_moves
  rcases of_decide_eq_true other_eq with rfl | rfl
  · exact absurd other_moves (by simp [Status.Moves])
  · exact absurd other_moves (by simp [Status.Moves])

/-- The scan keeps the descriptors. -/
theorem scanned_fd (round : Round cls mux env seen found ret before awake scanned closed started
    after) (socket : SocketPtr) : (scanned.heap socket).fd = (before.heap socket).fd :=
  (round.sights.steps socket).fd_eq.trans (wake_object round.woken socket).fd_eq

/-- A connected socket keeps its descriptor. -/
theorem connected_fd (ideal : IdealRegistry mux registered)
    (round : Round cls mux env seen found ret before awake scanned closed started after)
    {entry : Nat × SocketPtr} (connected : entry ∈ withStatus (· = .connected) seen) :
    (after.heap entry.2).fd = (before.heap entry.2).fd := by
  have frame := serves_fd cls mux env entry.2
  have started_fd := frame.startConnects
    (fun other starting _ => round.ne_of_connected connected starting) round.starting
  have served_fd := frame.dispatchReady
    (fun _ _ => ⟨fun write => absurd write (by decide), fun read => absurd read (by decide)⟩)
    round.serving
  rw [served_fd, started_fd, (closeInvalid_closes ideal round.closing).2]
  exact round.scanned_fd entry.2

/-- The scan takes time. -/
theorem scanned_time (round : Round cls mux env seen found ret before awake scanned closed started
    after) : before.time ≤ scanned.time := by
  have woken := round.woken
  rw [wake, Option.bind_eq_bind, Option.bind_eq_some_iff] at woken
  obtain ⟨middle, interrupted, finished⟩ := woken
  cases finished
  have slept := (allows_time cls).interrupt interrupted
  exact slept.trans round.sights.time_le

/-- A socket that was found connecting has then a descriptor that the kernel gave it in this
round. -/
theorem answered (round : Round cls mux env seen found ret before awake scanned closed started
    after) {entry : Nat × SocketPtr} (connecting : entry ∈ withStatus (· = .connecting) seen) :
    Answered env before.time after.time (after.heap entry.2).fd := by
  have listed : entry ∈ found.startConnect.entries := by
    obtain ⟨status, mem, status_eq⟩ := mem_withStatus.mp connecting
    rw [round.startConnect]
    exact mem_withStatus.mpr ⟨status, mem, decide_eq_true (.inr (of_decide_eq_true status_eq))⟩
  have attends : Attends cls mux env _ (Opens env entry.2 : Engine σ τ → Engine σ τ → Prop) :=
    Opens.attends cls mux env entry.2
  have closing := attends.closeInvalid (fun _ _ => trivial) round.closing
  have closed_time : before.time ≤ closed.time := round.scanned_time.trans closing.time_le
  have starting := startConnects_answered mux round.starting entry listed
  have serving := attends.dispatchReady (fun _ _ => ⟨trivial, trivial⟩) round.serving
  rcases serving.fd with same | answered
  · rw [same]
    exact starting.within closed_time serving.time_le
  · have started_time := (attends.startConnects (fun _ _ => trivial) round.starting).time_le
    exact answered.within (closed_time.trans started_time) (Nat.le_refl _)

/-- A round closes what it found disconnected. -/
theorem closes (ideal : IdealRegistry mux registered)
    (round : Round cls mux env seen found ret before awake scanned closed started after) :
    Closes registered (before.closingCalls (withStatus (· = .disconnected) seen)) before after := by
  have serves := Closes.serves cls env ideal
  have waking := (Closes.wake ideal round.woken).trans (.of_outside (Outside.lock .worker awake))
  have scanning : Closes registered [] (awake.lock .worker) scanned :=
    .of_same (congrArg registered round.sights.io) round.books.trace
  have prepared := (waking.trans scanning).trans (.of_outside (Outside.unlock .worker scanned))
  have deleted_eq : ∀ entry, (scanned.unlock .worker).deletedFor entry =
      before.deletedFor entry := by
    intro entry
    have fd_eq : ((scanned.unlock .worker).heap entry.2).fd = (before.heap entry.2).fd :=
      round.scanned_fd entry.2
    rw [deletedFor, deletedFor, fd_eq]
  have closing := (closeInvalid_closes ideal round.closing).1
  simp only [deleted_eq, round.disconnect] at closing
  have all := ((prepared.trans closing).trans
    (serves.startConnects (fun _ _ => trivial) round.starting)).trans
      (serves.dispatchReady (fun _ _ => ⟨trivial, trivial⟩) round.serving)
  simpa [closingCalls] using all

end Round

theorem iteration_of_readThread {ret : Int} {seen : List (Status × Nat × SocketPtr)}
    (ideal : IdealRegistry mux registered) (found : observed cls mux env before = some seen)
    (execution : readThread cls mux env before = some (ret, after)) :
    Iteration registered env seen before after := by
  rcases readThread_cases execution with ⟨awake, woken, empty, nothing, waited⟩ |
    ⟨seen', maps, awake, scanned, closed, started, round⟩
  · obtain rfl := Option.some.inj (found.symm.trans nothing)
    obtain ⟨fresh, awake_eq, -⟩ := (Progress.of_grown (Grown.wake woken)).entries
    rw [awake_eq] at empty
    refine ⟨?_, ?_, ?_, ?_, ?_, ?_⟩
    · rw [(List.append_eq_nil_iff.mp empty).1]
      exact fun _ mem => absurd mem List.not_mem_nil
    · exact fun _ mem => absurd mem List.not_mem_nil
    · exact fun _ mem => absurd mem List.not_mem_nil
    · exact fun _ mem => absurd mem List.not_mem_nil
    · exact fun _ mem => absurd mem List.not_mem_nil
    · exact ((Closes.wake ideal woken).trans (.of_outside (Outside.unlock .worker awake))).trans
        (Closes.waitForSockets ideal waited)
  · obtain rfl := Option.some.inj (found.symm.trans round.observed)
    refine ⟨?_, round.status, fun _ => round.stays, fun _ => round.connected_fd ideal,
      fun _ => round.answered, round.closes ideal⟩
    intro entry mem
    obtain ⟨fresh, awake_eq, -⟩ := (Progress.of_grown (Grown.wake round.woken)).entries
    have polled : entry ∈ seen.map Prod.snd := by
      rw [round.sights.entries, awake_eq]
      exact List.mem_append_left _ mem
    obtain ⟨sight, sight_mem, rfl⟩ := List.mem_map.mp polled
    exact ⟨sight.1, sight_mem⟩

/-! ## Deregistered before it is closed -/

theorem closingCalls_cons (engine : Engine σ τ) (entry : Nat × SocketPtr)
    (gone : List (Nat × SocketPtr)) :
    engine.closingCalls (entry :: gone) =
      .inl (engine.deletedFor entry) :: .inr entry.2 :: engine.closingCalls gone := rfl

theorem closingCalls_append (engine : Engine σ τ) (early late : List (Nat × SocketPtr)) :
    engine.closingCalls (early ++ late) = engine.closingCalls early ++ engine.closingCalls late :=
  List.flatMap_append

theorem inl_mem_closingCalls {engine : Engine σ τ} {gone : List (Nat × SocketPtr)} {fd : Int} :
    .inl fd ∈ engine.closingCalls gone ↔ ∃ entry ∈ gone, engine.deletedFor entry = fd := by
  simp [closingCalls, eq_comm]

/-- The descriptors that `DeleteFd` got when a socket is about to be disconnected. -/
theorem inl_mem_front {engine : Engine σ τ} {early : List (Nat × SocketPtr)}
    {entry : Nat × SocketPtr} {fd : Int} :
    .inl fd ∈ engine.closingCalls early ++ [.inl (engine.deletedFor entry)] ↔
      ∃ gone ∈ early ++ [entry], engine.deletedFor gone = fd := by
  rw [List.mem_append, inl_mem_closingCalls, List.mem_singleton, Sum.inl.injEq]
  simp only [List.mem_append, List.mem_singleton, or_and_right, exists_or, exists_eq_left]
  exact or_congr_right eq_comm

theorem closing_eq_inl {event : EngineEvent} {fd : Int} (closes : closing event = some (.inl fd)) :
    ∃ result, event = .deleteFd fd result := by
  cases event with
  | deleteFd other result =>
      obtain rfl := Sum.inl.inj (Option.some.inj closes)
      exact ⟨result, rfl⟩
  | called call socket => cases call <;> cases closes
  | _ => cases closes

theorem closing_eq_inr {event : EngineEvent} {socket : SocketPtr}
    (closes : closing event = some (.inr socket)) : event = .called .disconnect socket := by
  cases event with
  | called call other =>
      cases call with
      | disconnect =>
          obtain rfl := Sum.inr.inj (Option.some.inj closes)
          rfl
      | _ => cases closes
  | _ => cases closes

/-- A socket has `DeleteFd` called for it and then `RealDisconnect`, behind the calls for the
sockets before it. -/
theorem closingCalls_split {engine : Engine σ τ} {gone : List (Nat × SocketPtr)}
    {front back : List (Int ⊕ SocketPtr)} {socket : SocketPtr}
    (calls_eq : engine.closingCalls gone = front ++ .inr socket :: back) :
    ∃ early entry late, gone = early ++ entry :: late ∧ entry.2 = socket ∧
      front = engine.closingCalls early ++ [.inl (engine.deletedFor entry)] := by
  induction gone generalizing front with
  | nil => exact absurd calls_eq.symm (List.append_ne_nil_of_right_ne_nil _ (List.cons_ne_nil _ _))
  | cons entry gone ih =>
      rw [closingCalls_cons] at calls_eq
      cases front with
      | nil => cases (List.cons.inj calls_eq).1
      | cons first front =>
          obtain ⟨rfl, rest_eq⟩ := List.cons.inj calls_eq
          cases front with
          | nil =>
              obtain ⟨named, -⟩ := List.cons.inj rest_eq
              exact ⟨[], entry, gone, rfl, Sum.inr.inj named, rfl⟩
          | cons second front =>
              obtain ⟨rfl, later_eq⟩ := List.cons.inj rest_eq
              obtain ⟨early, other, late, gone_eq, named, front_eq⟩ := ih later_eq
              refine ⟨entry :: early, other, late, ?_, named, ?_⟩
              · rw [gone_eq, List.cons_append]
              · rw [front_eq, closingCalls_cons]
                rfl

/-- The calls of a round stand in its trace in their order. -/
theorem Iteration.deregistered_iff {seen : List (Status × Nat × SocketPtr)}
    (iteration : Iteration registered env seen before after) :
    (∀ events early late socket, after.trace = before.trace ++ events →
      events = early ++ .called .disconnect socket :: late →
        (before.heap socket).fd ∈ registered before.io →
          ∃ result, .deleteFd (before.heap socket).fd result ∈ early) ↔
      ∀ early entry late, withStatus (· = .disconnected) seen = early ++ entry :: late →
        (before.heap entry.2).fd ∈ registered before.io →
          ∃ gone ∈ early ++ [entry], before.deletedFor gone = (before.heap entry.2).fd := by
  obtain ⟨events, trace_eq, calls_eq⟩ := iteration.closes.trace
  constructor
  · intro deregistered early entry late gone_eq present
    have calls_split : events.filterMap closing =
        (before.closingCalls early ++ [.inl (before.deletedFor entry)]) ++
          .inr entry.2 :: before.closingCalls late := by
      rw [calls_eq, gone_eq, closingCalls_append, closingCalls_cons, List.append_assoc]
      rfl
    obtain ⟨front, back, events_eq, front_eq, back_eq⟩ :=
      List.filterMap_eq_append_iff.mp calls_split
    obtain ⟨between, event, rest, rfl, between_none, closes, -⟩ :=
      List.filterMap_eq_cons_iff.mp back_eq
    obtain rfl := closing_eq_inr closes
    obtain ⟨result, mem⟩ := deregistered events (front ++ between) rest entry.2 trace_eq
      (by rw [events_eq, List.append_assoc]) present
    have mem_front : .deleteFd (before.heap entry.2).fd result ∈ front := by
      rcases List.mem_append.mp mem with inside | beyond
      · exact inside
      · exact absurd (between_none _ beyond) (by simp [closing])
    apply inl_mem_front.mp
    rw [← front_eq]
    exact List.mem_filterMap.mpr ⟨_, mem_front, rfl⟩
  · intro settled events' early late socket trace_eq' events_eq present
    obtain rfl := List.append_cancel_left (trace_eq.symm.trans trace_eq')
    have calls_split : before.closingCalls (withStatus (· = .disconnected) seen) =
        early.filterMap closing ++ .inr socket :: late.filterMap closing := by
      rw [← calls_eq, events_eq, List.filterMap_append]
      rfl
    obtain ⟨early', entry, late', gone_eq, rfl, front_eq⟩ := closingCalls_split calls_split
    have called : .inl (before.heap entry.2).fd ∈ early.filterMap closing := by
      rw [front_eq]
      exact inl_mem_front.mpr (settled early' entry late' gone_eq present)
    obtain ⟨event, event_mem, closes⟩ := List.mem_filterMap.mp called
    obtain ⟨result, rfl⟩ := closing_eq_inl closes
    exact ⟨result, event_mem⟩

/-- The registered descriptors after a round. -/
theorem Iteration.registered_iff {seen : List (Status × Nat × SocketPtr)}
    (iteration : Iteration registered env seen before after) (fd : Int) :
    fd ∈ registered after.io ↔ fd ∈ registered before.io ∧
      ∀ entry ∈ withStatus (· = .disconnected) seen, before.deletedFor entry ≠ fd := by
  rw [iteration.closes.registered_iff, inl_mem_closingCalls]
  simp

/-- A round that leaves the registered descriptors right finds no socket connecting: what `socket`
answers for it is not registered. -/
theorem none_connecting {seen : List (Status × Nat × SocketPtr)} {polled : Nat × SocketPtr → Prop}
    (registers : Registers registered polled before)
    (fresh : ∀ fd, Answered env before.time after.time fd →
      ∀ entry ∈ withStatus (fun status => status = .connecting ∨ status = .connected) seen,
        (before.heap entry.2).fd ≠ fd)
    (iteration : Iteration registered env seen before after)
    (tracks : Tracks registered seen before after) : withStatus (· = .connecting) seen = [] := by
  rw [List.eq_nil_iff_forall_not_mem]
  intro entry mem
  have watched :
      entry ∈ withStatus (fun status => status = .connecting ∨ status = .connected) seen := by
    obtain ⟨found, found_mem, found_eq⟩ := mem_withStatus.mp mem
    exact mem_withStatus.mpr ⟨found, found_mem, decide_eq_true (.inl (of_decide_eq_true found_eq))⟩
  have answered := iteration.connecting entry mem
  have present := (tracks.registered_iff _).mpr ⟨entry, iteration.stays entry watched, watched, rfl⟩
  obtain ⟨present_before, undeleted⟩ := (iteration.registered_iff _).mp present
  obtain ⟨owner, owner_mem, owner_polled, owner_fd⟩ :=
    (registers.registered_iff _).mp present_before
  obtain ⟨status, owner_seen⟩ := iteration.present owner owner_mem
  have moves := iteration.status _ owner_seen
  obtain ⟨not_init, not_starting⟩ := registers.status owner owner_mem owner_polled
  cases status with
  | init =>
      rcases moves with same | gone | ⟨-, started⟩
      · exact not_init same.symm
      · cases gone
      · cases started
  | startConnect =>
      rcases moves with same | gone | ⟨fresh_before, -⟩
      · exact not_starting same.symm
      · cases gone
      · exact not_init fresh_before
  | connecting =>
      exact fresh _ answered owner (mem_withStatus.mpr ⟨_, owner_seen, rfl⟩) owner_fd
  | connected =>
      exact fresh _ answered owner (mem_withStatus.mpr ⟨_, owner_seen, rfl⟩) owner_fd
  | disconnected =>
      -- The owner is disconnected in this round, so its descriptor was deregistered.
      have gone : owner ∈ withStatus (· = .disconnected) seen :=
        mem_withStatus.mpr ⟨_, owner_seen, rfl⟩
      obtain ⟨early, late, gone_eq⟩ := List.append_of_mem gone
      rw [← owner_fd] at present_before undeleted
      obtain ⟨other, other_mem, deleted_eq⟩ :=
        iteration.deregistered_iff.mp tracks.deregistered early owner late gone_eq present_before
      refine undeleted other ?_ deleted_eq
      rw [gone_eq, List.append_cons]
      exact List.mem_append_left _ other_mem

/-- From a state in which the registered descriptors are those of the polled sockets, a round leaves
them right exactly if nothing had to be changed but what `DeleteFd` gets, as long as `socket` does
not answer in this round with the descriptor of a socket that it found connecting or connected. -/
theorem tracks_iff (cls : SocketClass σ ι) (mux : IoMultiplexing τ) (env : Environment ι)
    (registered : τ → Set Int) (ideal : IdealRegistry mux registered)
    (polled : Nat × SocketPtr → Prop) (before : Engine σ τ)
    (registers : Registers registered polled before) (seen : List (Status × Nat × SocketPtr))
    (found : observed cls mux env before = some seen)
    (ret : Int) (after : Engine σ τ)
    (execution : readThread cls mux env before = some (ret, after))
    (fresh : ∀ fd, Answered env before.time after.time fd →
      ∀ entry ∈ withStatus (fun status => status = .connecting ∨ status = .connected) seen,
        (before.heap entry.2).fd ≠ fd) :
    Tracks registered seen before after ↔ Settled registered seen before := by
  have iteration : Iteration registered env seen before after :=
    iteration_of_readThread ideal found execution
  have watched_iff : withStatus (· = .connecting) seen = [] → ∀ fd,
      (∃ entry ∈ after.sockets.entries,
        entry ∈ withStatus (fun status => status = .connecting ∨ status = .connected) seen ∧
          (after.heap entry.2).fd = fd) ↔
        ∃ entry ∈ withStatus (· = .connected) seen, (before.heap entry.2).fd = fd := by
    intro none_connecting fd
    constructor
    · rintro ⟨entry, -, watched, fd_eq⟩
      obtain ⟨status, mem, status_eq⟩ := mem_withStatus.mp watched
      rcases of_decide_eq_true status_eq with rfl | rfl
      · have connecting : entry ∈ withStatus (· = .connecting) seen :=
          mem_withStatus.mpr ⟨_, mem, rfl⟩
        rw [none_connecting] at connecting
        exact absurd connecting List.not_mem_nil
      · have connected : entry ∈ withStatus (· = .connected) seen :=
          mem_withStatus.mpr ⟨_, mem, rfl⟩
        exact ⟨entry, connected, (iteration.connected entry connected).symm.trans fd_eq⟩
    · rintro ⟨entry, connected, fd_eq⟩
      obtain ⟨status, mem, status_eq⟩ := mem_withStatus.mp connected
      have watched : entry ∈
          withStatus (fun status => status = .connecting ∨ status = .connected) seen :=
        mem_withStatus.mpr ⟨status, mem, decide_eq_true (.inr (of_decide_eq_true status_eq))⟩
      exact ⟨entry, iteration.stays entry watched, watched,
        (iteration.connected entry connected).trans fd_eq⟩
  constructor
  · intro tracks
    have connecting := none_connecting registers fresh iteration tracks
    refine ⟨connecting, ?_, iteration.deregistered_iff.mp tracks.deregistered⟩
    intro fd
    rw [← iteration.registered_iff, tracks.registered_iff, watched_iff connecting]
  · intro settled
    refine ⟨?_, iteration.deregistered_iff.mpr settled.disconnected⟩
    intro fd
    rw [iteration.registered_iff, settled.connected, watched_iff settled.connecting]

/-- A multiplexer that keeps a set of descriptors and finds none ready. -/
def setMux : IoMultiplexing (List Int) where
  addFd fd _ _ io := (0, fd :: io)
  deleteFd fd io := (if fd ∈ io then 0 else -1, io.filter (· ≠ fd))
  dispatch _ _ io := (0, io)
  sleep _ io := (0, io)
  fdCheck _ io := ((0, false, false), io)

theorem idealRegistry_setMux : IdealRegistry setMux fun io => {fd | fd ∈ io} where
  addFd_succeeds _ _ _ _ := le_rfl
  addFd _ _ _ _ := by
    ext other
    exact List.mem_cons
  deleteFd fd io := by
    ext other
    simp [setMux]
  dispatch _ _ _ := rfl
  sleep _ _ := rfl
  fdCheck _ _ := rfl

/-- A kernel that opens another descriptor every time. -/
def openingAlone : Environment WriteResult :=
  { alone with connect := fun time => { Socket.obligingKernel with socket := fun _ => 10 + time } }

/-- An engine with one connected socket, whose descriptor is registered. -/
def connectedSocket : Engine (Transmission Unit) (List Int) :=
  ((construct [7] fun _ => { Transmission.construct () with fd := 7, status := .connected }).add
    .other 3 (.accepts 1)).2

theorem tracks_iff_connectedSocket :
    ∃ after, readThread (Transmission.socketClass SocketHandler.sink) setMux openingAlone
        connectedSocket = some (0, after) ∧
      (Tracks (fun io => {fd | fd ∈ io}) [(.connected, 1, 3)] connectedSocket after ↔
        Settled (fun io => {fd | fd ∈ io}) [(.connected, 1, 3)] connectedSocket) := by
  refine ⟨_, rfl, tracks_iff (Transmission.socketClass SocketHandler.sink) setMux openingAlone
    (fun io => {fd | fd ∈ io}) idealRegistry_setMux (fun _ => True) connectedSocket ?_
    [(.connected, 1, 3)] rfl 0 _ rfl ?_⟩
  · have entries_eq : connectedSocket.sockets.entries = [(1, 3)] := rfl
    have registered_eq : connectedSocket.io = [7] := rfl
    have socket_eq : ∀ socket, (connectedSocket.heap socket).fd = 7 ∧
        (connectedSocket.heap socket).status = .connected := fun _ => ⟨rfl, rfl⟩
    constructor
    · intro fd
      simp [entries_eq, registered_eq, socket_eq, eq_comm]
    · intro entry mem _
      simp [socket_eq]
  · rintro fd ⟨time, kind, -, -, rfl⟩ entry mem same
    have fd_eq : (connectedSocket.heap entry.2).fd = 7 := rfl
    rw [fd_eq] at same
    have answer : (openingAlone.connect time).socket kind = 10 + time := rfl
    omega

/-- A socket that started to connect in the round before is found connecting; it connects anew, and
its descriptor is not registered. -/
theorem connecting_unregistered :
    ∃ start before after,
      PartialRun.run (EngineCall.perform (Transmission.socketClass SocketHandler.sink) setMux
          openingAlone) [.add .other 3 (.accepts 1), .readThread] start = some before ∧
        start = construct [] (fun _ => ((Transmission.construct ()).setIpPort
          [49, 46, 50, 46, 51, 46, 52] 80).connect 0 0) ∧
        Registers (fun io => {fd | fd ∈ io}) (fun _ => False) before ∧
        observed (Transmission.socketClass SocketHandler.sink) setMux openingAlone before =
          some [(.connecting, 1, 3)] ∧
        readThread (Transmission.socketClass SocketHandler.sink) setMux openingAlone before =
          some (0, after) ∧
        ¬Tracks (fun io => {fd | fd ∈ io}) [(.connecting, 1, 3)] before after := by
  refine ⟨_, _, _, rfl, rfl, ?_, rfl, rfl, ?_⟩
  · constructor
    · intro fd
      exact iff_of_false List.not_mem_nil fun ⟨_, _, polled, _⟩ => polled
    · exact fun _ _ polled => absurd polled id
  · intro tracks
    have watched := (tracks.registered_iff _).mpr
      ⟨(1, 3), List.mem_singleton.mpr rfl, List.mem_singleton.mpr rfl, rfl⟩
    exact absurd watched List.not_mem_nil

end Engine
end NetworkBase
