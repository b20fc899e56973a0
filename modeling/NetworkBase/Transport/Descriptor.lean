import NetworkBase.Transport.Socket

/-!
# The descriptor of a socket

Only `RealConnect` sets the descriptor, and only `RealDisconnect` closes it.  Everything else that
is called on a socket leaves the member alone and opens and closes nothing.
-/

namespace NetworkBase

/-- The descriptor that a call of `socket` returned, if it succeeded. -/
def Event.openedFd : Event → Option Int
  | .opened fd => if 0 ≤ fd then some fd else none
  | _ => none

/-- The descriptor that a call of `close` closed; it fails on a negative one. -/
def Event.closedFd : Event → Option Int
  | .closed fd => if 0 ≤ fd then some fd else none
  | _ => none

/-- Every descriptor that a socket opened was closed by it once, and it never owned two. -/
structure Conserved (log : List Event) : Prop where
  closed : log.filterMap Event.closedFd = log.filterMap Event.openedFd
  owned : ∀ early, early <+: log → ∃ owned : List Int,
    early.filterMap Event.openedFd = early.filterMap Event.closedFd ++ owned ∧ owned.length ≤ 1

/-- The event opens or closes a descriptor. -/
def Event.onDescriptor : Event → Bool
  | .opened _ => true
  | .closed _ => true
  | _ => false

theorem Event.openedFd_of_onDescriptor {event : Event} (other : event.onDescriptor = false) :
    event.openedFd = none ∧ event.closedFd = none := by
  cases event with
  | opened fd => cases other
  | closed fd => cases other
  | _ => exact ⟨rfl, rfl⟩

/-- The events that open and close nothing play no part. -/
theorem filterMap_onDescriptor {f : Event → Option Int}
    (others : ∀ event : Event, event.onDescriptor = false → f event = none) (log : List Event) :
    (log.filter Event.onDescriptor).filterMap f = log.filterMap f := by
  induction log with
  | nil => rfl
  | cons event log ih =>
      by_cases descriptor : event.onDescriptor = true
      · rw [List.filter_cons_of_pos descriptor, List.filterMap_cons, List.filterMap_cons, ih]
      · have nothing := others event (Bool.eq_false_of_not_eq_true descriptor)
        rw [List.filter_cons_of_neg descriptor, List.filterMap_cons_none nothing, ih]

theorem Conserved.of_filter {log : List Event}
    (conserved : Conserved (log.filter Event.onDescriptor)) : Conserved log := by
  have opened := filterMap_onDescriptor fun event other => (Event.openedFd_of_onDescriptor other).1
  have closed := filterMap_onDescriptor fun event other => (Event.openedFd_of_onDescriptor other).2
  constructor
  · rw [← closed, ← opened]
    exact conserved.closed
  · intro early before
    rw [← closed, ← opened]
    exact conserved.owned _ (before.filter Event.onDescriptor)

theorem conserved_nil : Conserved [] where
  closed := rfl
  owned early before := by
    rw [List.prefix_nil.mp before]
    exact ⟨[], rfl, Nat.zero_le 1⟩

/-- A descriptor is opened and closed. -/
theorem conserved_pair (fd : Int) : Conserved [.opened fd, .closed fd] := by
  have same : [Event.opened fd, .closed fd].filterMap Event.closedFd =
      [Event.opened fd, .closed fd].filterMap Event.openedFd := by
    by_cases success : 0 ≤ fd
    · simp [List.filterMap_cons, Event.openedFd, Event.closedFd, success]
    · simp [List.filterMap_cons, Event.openedFd, Event.closedFd, success]
  refine ⟨same, ?_⟩
  intro early before
  rcases List.prefix_cons_iff.mp before with rfl | ⟨rest, rfl, inner⟩
  · exact ⟨[], rfl, Nat.zero_le 1⟩
  rcases List.prefix_cons_iff.mp inner with rfl | ⟨rest, rfl, last⟩
  · exact ⟨[Event.opened fd].filterMap Event.openedFd, rfl, List.length_filterMap_le _ _⟩
  · obtain rfl := List.prefix_nil.mp last
    exact ⟨[], same.symm.trans (List.append_nil _).symm, Nat.zero_le 1⟩

namespace Socket

variable {σ ι : Type} {cls : SocketClass σ ι} {before after : Socket σ}

/-- The descriptors that were opened and closed, in this order. -/
def descriptorLog (socket : Socket σ) : List Event := socket.log.filter Event.onDescriptor

/-- The descriptor is the same, and none was opened or closed. -/
structure SameDescriptor (before after : Socket σ) : Prop where
  fd : after.fd = before.fd
  log : after.descriptorLog = before.descriptorLog

namespace SameDescriptor

theorem refl (socket : Socket σ) : SameDescriptor socket socket := ⟨rfl, rfl⟩

theorem trans {middle : Socket σ} (first : SameDescriptor before middle)
    (second : SameDescriptor middle after) : SameDescriptor before after :=
  ⟨second.fd.trans first.fd, second.log.trans first.log⟩

/-- Showing an event that opens and closes nothing. -/
theorem emit {event : Event} (other : event.onDescriptor = false) (socket : Socket σ) :
    SameDescriptor socket (socket.emit event) := by
  refine ⟨rfl, ?_⟩
  rw [descriptorLog, log_emit, List.filter_append, List.filter_cons_of_neg (by simp [other]),
    List.filter_nil, List.append_nil, descriptorLog]

theorem assign (status : Status) (socket : Socket σ) :
    SameDescriptor socket (socket.assign status) :=
  (emit rfl socket : SameDescriptor socket (socket.emit (.assigned status))).trans ⟨rfl, rfl⟩

/-- A virtual method that shows no event on a descriptor. -/
theorem of_steps {allowed : Event → Prop}
    (others : ∀ event, allowed event → event.onDescriptor = false)
    (steps : SubSteps allowed before after) : SameDescriptor before after := by
  obtain ⟨shown, log_eq, all⟩ := steps.log_extends
  refine ⟨steps.fd_eq, ?_⟩
  have nothing : shown.filter Event.onDescriptor = [] := by
    rw [List.filter_eq_nil_iff]
    intro event mem
    rcases all event mem with ok | ⟨status, rfl⟩
    · rw [others event ok]
      exact Bool.false_ne_true
    · exact Bool.false_ne_true
  rw [descriptorLog, log_eq, List.filter_append, nothing, List.append_nil, descriptorLog]

theorem of_quiet (steps : SubSteps quiet before after) : SameDescriptor before after := by
  refine of_steps ?_ steps
  intro event ok
  cases event with
  | send data result => rfl
  | _ => exact absurd ok id

theorem of_serving {fd : Int} (steps : SubSteps (serving fd) before after) :
    SameDescriptor before after := by
  refine of_steps ?_ steps
  intro event ok
  cases event with
  | opened fd => exact absurd ok id
  | closed fd => exact absurd ok id
  | _ => rfl

/-- `RealRead` and `RealWrite` do not touch the descriptor. -/
theorem kept (cls : SocketClass σ ι) (original : Socket σ) :
    Kept cls fun socket => SameDescriptor original socket where
  disconnect socket same := same.trans (assign .disconnected socket)
  barren socket _ same _ := same.trans (emit rfl socket)
  onRead _ _ _ socket _ _ same execution :=
    (same.trans (emit rfl socket)).trans (of_serving (cls.onRead_within _ _ _ _ _ _ execution))
  onWrite _ _ _ _ same execution :=
    same.trans (of_serving (cls.onWrite_within _ _ _ _ execution))
  report socket _ same _ execution :=
    ((same.trans (assign .connected socket)).trans (emit rfl _)).trans
      (of_quiet (cls.onConnect_within _ _ execution))

theorem realRead {reads : List (ReadResult × ι)}
    (execution : realRead cls reads before = some after) : SameDescriptor before after :=
  (kept cls before).realRead execution (refl before)

theorem realWrite {soError : SoError} {input : ι}
    (execution : realWrite cls soError input before = some after) : SameDescriptor before after :=
  (kept cls before).realWrite execution (refl before)

end SameDescriptor

/-- A socket that is beyond `START_CONNECT` stays so. -/
theorem kept_beyond (cls : SocketClass σ ι) :
    Kept cls fun socket => 2 ≤ socket.status.rank where
  disconnect _ _ := (by decide : 2 ≤ Status.disconnected.rank)
  barren _ _ beyond _ := beyond
  onRead _ _ _ _ _ _ beyond execution :=
    beyond.trans (cls.onRead_within _ _ _ _ _ _ execution).rank_le
  onWrite _ _ _ _ beyond execution := beyond.trans (cls.onWrite_within _ _ _ _ execution).rank_le
  report _ _ _ _ execution :=
    (by decide : 2 ≤ Status.connected.rank).trans (cls.onConnect_within _ _ execution).rank_le

/-- `RealConnect` opens one descriptor, whatever it had before, and is under way or gives up. -/
theorem realConnect_opens (kernel : ConnectKernel) (socket : Socket σ) :
    (∃ kind, (socket.realConnect kernel).fd = kernel.socket kind) ∧
      (socket.realConnect kernel).descriptorLog =
        socket.descriptorLog ++ [.opened (socket.realConnect kernel).fd] ∧
      ((socket.realConnect kernel).status = .connecting ∨
        (socket.realConnect kernel).status = .disconnected) := by
  have opened : (∃ kind, (socket.openSocket kernel).fd = kernel.socket kind) ∧
      (socket.openSocket kernel).descriptorLog =
        socket.descriptorLog ++ [.opened (socket.openSocket kernel).fd] := by
    refine ⟨⟨_, rfl⟩, ?_⟩
    rcases openSocket_cases kernel socket with ⟨-, -, log_eq⟩ | ⟨-, -, log_eq⟩
    · rw [descriptorLog, log_eq, List.filter_append, descriptorLog]
      rfl
    · rw [descriptorLog, log_eq, List.filter_append, descriptorLog]
      rfl
  have ended : ∀ status, ((socket.openSocket kernel).assign status).descriptorLog =
      (socket.openSocket kernel).descriptorLog := fun status => (SameDescriptor.assign status _).log
  by_cases succeeds : socket.AttemptSucceeds kernel
  · rw [realConnect_of_succeeds succeeds, fd_assign, ended]
    exact ⟨opened.1, opened.2, .inl rfl⟩
  · rw [realConnect_of_fails succeeds, fd_assign, ended]
    exact ⟨opened.1, opened.2, .inr rfl⟩

/-- `RealDisconnect` closes the descriptor unless it is zero, and keeps the number. -/
theorem realDisconnect_closes (execution : realDisconnect cls before = some after) :
    after.fd = before.fd ∧ after.descriptorLog =
      before.descriptorLog ++ if before.fd = 0 then [] else [.closed before.fd] := by
  rw [realDisconnect, Option.bind_eq_bind, Option.bind_eq_some_iff] at execution
  obtain ⟨told, reported, execution⟩ := execution
  have same : SameDescriptor before told :=
    (SameDescriptor.emit rfl before).trans
      (SameDescriptor.of_quiet (cls.onDisconnect_within _ _ reported))
  by_cases none_open : told.fd = 0
  · rw [if_neg (not_not.mpr none_open)] at execution
    cases execution
    rw [if_pos (same.fd.symm.trans none_open), List.append_nil]
    exact ⟨same.fd, same.log⟩
  · rw [if_pos none_open] at execution
    cases execution
    rw [if_neg (fun zero => none_open (same.fd.trans zero)), ← same.fd]
    refine ⟨rfl, ?_⟩
    rw [descriptorLog, log_emit, List.filter_append, ← descriptorLog, same.log]
    rfl

end Socket
end NetworkBase
