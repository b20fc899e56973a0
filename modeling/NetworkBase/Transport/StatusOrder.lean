import NetworkBase.Library.PartialRun
import NetworkBase.Transport.Transmission

/-!
# The order of the stages

The stages assigned to a socket climb through the enumeration as long as `RealConnect` is called in
the stage it expects or fails.  The check at its entry gives up any other stage but does not
return, so a `RealConnect` that finds its socket closed and whose kernel calls succeed reopens it.
-/

namespace NetworkBase
namespace Socket

variable {σ ι : Type}

/-- The stage an event assigns. -/
def assignedStatus : Event → Option Status
  | .assigned status => some status
  | _ => none

/-- The stages a socket went through, its first one included. -/
def history (socket : Socket σ) : List Status :=
  .init :: socket.log.filterMap assignedStatus

/-- The stages never went back. -/
def Climbs (stages : List Status) : Prop :=
  stages.Pairwise fun before after => before.rank ≤ after.rank

instance (stages : List Status) : Decidable (Climbs stages) :=
  inferInstanceAs (Decidable (stages.Pairwise fun before after => before.rank ≤ after.rank))

/-- How often the handler was told that the connection is there. -/
def onConnectCount (socket : Socket σ) : Nat := socket.log.count .onConnect

/-- Events that neither assign a stage nor report a connection. -/
def Passive (event : Event) : Prop := assignedStatus event = none ∧ event ≠ .onConnect

/-- The stages climbed up to the present one, and a connection was reported at most once, not
before the stage `CONNECTED`. -/
structure Forward (socket : Socket σ) : Prop where
  climbs : Climbs socket.history
  top : ∀ status ∈ socket.history, status.rank ≤ socket.status.rank
  unreported : socket.status.rank < Status.connected.rank → socket.onConnectCount = 0
  once : socket.onConnectCount ≤ 1

theorem passive_of_serving {fd : Int} {event : Event} (ok : serving fd event) : Passive event := by
  cases event <;> simp_all [serving, Passive, assignedStatus]

theorem passive_of_quiet {event : Event} (ok : quiet event) : Passive event :=
  passive_of_serving (serving_of_quiet 0 event ok)

theorem construct_forward (sub : σ) : (construct sub).Forward where
  climbs := List.pairwise_singleton _ _
  top := by simp [history, construct]
  unreported _ := rfl
  once := Nat.zero_le 1

/-- A state with the same stages and log is as far forward. -/
theorem Forward.congr {before after : Socket σ} (forward : before.Forward)
    (status_eq : after.status = before.status) (log_eq : after.log = before.log) :
    after.Forward := by
  have history_eq : after.history = before.history := by rw [history, history, log_eq]
  have count_eq : after.onConnectCount = before.onConnectCount := by
    rw [onConnectCount, onConnectCount, log_eq]
  exact
    { climbs := history_eq ▸ forward.climbs
      top := by rw [history_eq, status_eq]; exact forward.top
      unreported := by rw [count_eq, status_eq]; exact forward.unreported
      once := count_eq ▸ forward.once }

/-- Assigning a stage that is not behind the present one. -/
theorem Forward.assign {socket : Socket σ} (forward : socket.Forward) {status : Status}
    (ahead : socket.status.rank ≤ status.rank) : (socket.assign status).Forward := by
  have history_eq : (socket.assign status).history = socket.history ++ [status] := by
    simp [history, assignedStatus, List.filterMap_append]
  have count_eq : (socket.assign status).onConnectCount = socket.onConnectCount := by
    simp [onConnectCount, List.count_append]
  constructor
  · rw [history_eq, Climbs, List.pairwise_append]
    refine ⟨forward.climbs, List.pairwise_singleton _ _, ?_⟩
    intro earlier mem latest latest_mem
    obtain rfl := List.mem_singleton.mp latest_mem
    exact (forward.top earlier mem).trans ahead
  · intro earlier mem
    rw [history_eq, List.mem_append] at mem
    rcases mem with mem | mem
    · exact (forward.top earlier mem).trans ahead
    · obtain rfl := List.mem_singleton.mp mem
      exact Nat.le_refl _
  · intro early
    rw [count_eq]
    exact forward.unreported (Nat.lt_of_le_of_lt ahead early)
  · rw [count_eq]
    exact forward.once

/-- Showing a passive event. -/
theorem Forward.emit {socket : Socket σ} (forward : socket.Forward) {event : Event}
    (passive : Passive event) : (socket.emit event).Forward := by
  have history_eq : (socket.emit event).history = socket.history := by
    simp [history, passive.1, List.filterMap_append]
  have count_eq : (socket.emit event).onConnectCount = socket.onConnectCount := by
    simp [onConnectCount, List.count_append, passive.2]
  exact
    { climbs := history_eq ▸ forward.climbs
      top := by rw [history_eq]; exact forward.top
      unreported := by rw [count_eq]; exact forward.unreported
      once := count_eq ▸ forward.once }

/-- Reaching `CONNECTED` from an earlier stage and reporting it. -/
theorem Forward.report {socket : Socket σ} (forward : socket.Forward)
    (early : socket.status.rank < Status.connected.rank) :
    ((socket.assign .connected).emit .onConnect).Forward := by
  have assigned : (socket.assign .connected).Forward := forward.assign early.le
  have count_eq :
      ((socket.assign .connected).emit .onConnect).onConnectCount = 1 := by
    have := forward.unreported early
    simp_all [onConnectCount, List.count_append]
  have history_eq : ((socket.assign .connected).emit .onConnect).history =
      (socket.assign .connected).history := by
    simp [history, assignedStatus, List.filterMap_append]
  exact
    { climbs := history_eq ▸ assigned.climbs
      top := by rw [history_eq]; exact assigned.top
      unreported := fun behind => absurd behind (Nat.lt_irrefl _)
      once := count_eq.le }

theorem rank_le_disconnected (status : Status) : status.rank ≤ Status.disconnected.rank := by
  cases status <;> decide

theorem Forward.disconnect {socket : Socket σ} (forward : socket.Forward) :
    (socket.assign .disconnected).Forward :=
  forward.assign (rank_le_disconnected _)

theorem Forward.connect {socket : Socket σ} (forward : socket.Forward) (now timeoutMs : Nat) :
    (socket.connect now timeoutMs).Forward := by
  rcases connect_cases now timeoutMs socket with ⟨fresh, status_eq, log_eq⟩ | ⟨status_eq, log_eq⟩
  · have started : (socket.assign .startConnect).Forward :=
      forward.assign (by rw [fresh]; decide)
    exact started.congr status_eq log_eq
  · exact forward.congr status_eq log_eq

/-- Virtual methods that show passive events go forward. -/
theorem Forward.subSteps {allowed : Event → Prop} {before after : Socket σ}
    (passive : ∀ event, allowed event → Passive event)
    (steps : SubSteps allowed before after) (forward : before.Forward) : after.Forward := by
  refine steps.preserves Forward ?_ forward
  intro first next step first_forward
  cases step with
  | members sub => exact first_forward.congr rfl rfl
  | event event ok => exact first_forward.emit (passive event ok)
  | setProtocol protocol => exact first_forward.congr rfl rfl
  | setIpPort ip port => exact first_forward.congr rfl rfl
  | connect now timeoutMs => exact first_forward.connect now timeoutMs
  | close => exact first_forward.disconnect

/-- `RealConnect` goes forward when it is expected or fails. -/
theorem Forward.realConnect {socket : Socket σ} (forward : socket.Forward)
    (kernel : ConnectKernel)
    (expected : socket.status = .startConnect ∨ ¬socket.AttemptSucceeds kernel) :
    (socket.realConnect kernel).Forward := by
  have opened : (socket.openSocket kernel).Forward := by
    rcases openSocket_cases kernel socket with ⟨start, status_eq, log_eq⟩ | ⟨-, status_eq, log_eq⟩
    · have shown : ((socket.emit .realConnect).emit
          (.opened (socket.openSocket kernel).fd)).Forward :=
        (forward.emit ⟨rfl, by simp⟩).emit ⟨rfl, by simp⟩
      exact shown.congr (status_eq.trans start.symm) (by simp [log_eq])
    · have shown : (((socket.emit .realConnect).assign .disconnected).emit
          (.opened (socket.openSocket kernel).fd)).Forward :=
        (forward.emit ⟨rfl, by simp⟩).disconnect.emit ⟨rfl, by simp⟩
      exact shown.congr status_eq (by simp [log_eq])
  by_cases succeeds : socket.AttemptSucceeds kernel
  · rw [realConnect_of_succeeds succeeds]
    apply opened.assign
    rcases openSocket_cases kernel socket with ⟨-, status_eq, -⟩ | ⟨unexpected, -, -⟩
    · rw [status_eq]
      decide
    · exact absurd succeeds (expected.resolve_left unexpected)
  · rw [realConnect_of_fails succeeds]
    exact opened.disconnect

/-- `RealRead` and `RealWrite` go forward. -/
theorem kept_forward (cls : SocketClass σ ι) : Kept cls Forward where
  disconnect _ forward := forward.disconnect
  barren _ _ forward _ := forward.emit ⟨rfl, by simp⟩
  onRead _ _ _ _ _ _ forward execution :=
    Forward.subSteps (fun _ => passive_of_serving) (cls.onRead_within _ _ _ _ _ _ execution)
      (forward.emit ⟨rfl, by simp⟩)
  onWrite _ _ _ _ forward execution :=
    forward.subSteps (fun _ => passive_of_serving) (cls.onWrite_within _ _ _ _ execution)
  report _ _ forward connecting execution :=
    Forward.subSteps (fun _ => passive_of_quiet) (cls.onConnect_within _ _ execution)
      (forward.report (by rw [connecting]; decide))

/-- A `RealConnect` is expected, or one of its kernel calls fails. -/
def Call.Expected : Call ι → Socket σ → Prop
  | .realConnect kernel, socket =>
      socket.status = .startConnect ∨ ¬socket.AttemptSucceeds kernel
  | _, _ => True

/-- Every call goes forward, a `RealConnect` when it is expected. -/
theorem Forward.perform {cls : SocketClass σ ι} {call : Call ι} {before after : Socket σ}
    (forward : before.Forward) (expected : call.Expected before)
    (execution : perform cls call before = some after) : after.Forward := by
  cases call with
  | setProtocol protocol =>
      cases execution
      exact forward.congr rfl rfl
  | setIpPort ip port =>
      cases execution
      exact forward.congr rfl rfl
  | connect now timeoutMs =>
      cases execution
      exact forward.connect now timeoutMs
  | close =>
      cases execution
      exact forward.disconnect
  | send data =>
      rw [Socket.perform, Option.map_eq_some_iff] at execution
      obtain ⟨⟨result, next⟩, sent, rfl⟩ := execution
      exact forward.subSteps (fun _ => passive_of_quiet) (cls.send_within _ _ _ _ sent)
  | realConnect kernel =>
      cases execution
      exact forward.realConnect kernel expected
  | realRead reads => exact (kept_forward cls).realRead execution forward
  | realWrite soError input => exact (kept_forward cls).realWrite execution forward

/-- An unexpected `RealConnect` whose kernel calls succeed leaves `DISCONNECTED` again. -/
theorem not_climbs_of_unexpected {kernel : ConnectKernel} {socket : Socket σ}
    (unexpected : socket.status ≠ .startConnect) (succeeds : socket.AttemptSucceeds kernel) :
    ¬Climbs (socket.realConnect kernel).history := by
  rcases openSocket_cases kernel socket with ⟨start, -, -⟩ | ⟨-, -, log_eq⟩
  · exact absurd start unexpected
  · have history_eq : (socket.realConnect kernel).history =
        socket.history ++ [.disconnected, .connecting] := by
      rw [realConnect_of_succeeds succeeds]
      simp only [history, log_assign, log_eq, List.filterMap_append, List.cons_append,
        List.append_assoc]
      rfl
    rw [history_eq, Climbs, List.pairwise_append]
    rintro ⟨-, back, -⟩
    exact absurd (List.rel_of_pairwise_cons back (List.mem_singleton.mpr rfl)) (by decide)

/-- Stages that once went back went back for good. -/
theorem climbs_of_log_grown {before after : Socket σ} (grown : before.log <+: after.log)
    (climbs : Climbs after.history) : Climbs before.history := by
  obtain ⟨shown, log_eq⟩ := grown
  have history_eq : after.history = before.history ++ shown.filterMap assignedStatus := by
    rw [history, history, ← log_eq, List.filterMap_append, List.cons_append]
  rw [history_eq] at climbs
  exact climbs.sublist (List.sublist_append_left _ _)

/-- A log only ever grows in a run. -/
theorem log_prefix_of_run {cls : SocketClass σ ι} {calls : List (Call ι)} {before after : Socket σ}
    (execution : PartialRun.run (perform cls) calls before = some after) :
    before.log <+: after.log :=
  PartialRun.invariant (fun socket => before.log <+: socket.log)
    (fun _ _ _ grown step => grown.trans (log_prefix_of_perform step)) execution List.prefix_rfl

/-- A run that starts forward keeps climbing exactly if every `RealConnect` in it is expected or
fails. -/
theorem climbs_iff_guarded {cls : SocketClass σ ι} {calls : List (Call ι)}
    {before after : Socket σ} (forward : before.Forward)
    (execution : PartialRun.run (perform cls) calls before = some after) :
    Climbs after.history ↔ PartialRun.Guarded (perform cls) Call.Expected calls before := by
  induction calls generalizing before with
  | nil =>
      obtain rfl : before = after := by simpa using execution
      exact ⟨fun _ => trivial, fun _ => forward.climbs⟩
  | cons call calls ih =>
      obtain ⟨middle, first, rest⟩ := PartialRun.run_cons_eq_some.mp execution
      have grown : middle.log <+: after.log := log_prefix_of_run rest
      by_cases expected : call.Expected before
      · rw [ih (forward.perform expected first) rest]
        constructor
        · intro later
          refine ⟨expected, ?_⟩
          intro next next_eq
          obtain rfl := Option.some.inj (first.symm.trans next_eq)
          exact later
        · intro guarded
          exact guarded.2 middle first
      · refine ⟨fun climbs => ?_, fun guarded => absurd guarded.1 expected⟩
        cases call with
        | realConnect kernel =>
            cases first
            obtain ⟨unexpected, succeeds⟩ := not_or.mp expected
            exact absurd (climbs_of_log_grown grown climbs)
              (not_climbs_of_unexpected unexpected (not_not.mp succeeds))
        | _ => exact absurd trivial expected

/-- What the enumeration order promises: the stages of a socket never go back, and its handler is
told about a connection at most once. -/
def KeepsOrder (socket : Socket σ) : Prop :=
  Climbs socket.history ∧ socket.onConnectCount ≤ 1

/-- From its construction on, a socket keeps the order exactly in the runs in which every
`RealConnect` finds `START_CONNECT` or has a failing kernel call. -/
theorem keepsOrder_iff_guarded (cls : SocketClass σ ι) (sub : σ) (calls : List (Call ι))
    (final : Socket σ)
    (execution : PartialRun.run (perform cls) calls (construct sub) = some final) :
    final.KeepsOrder ↔
      PartialRun.Guarded (perform cls) Call.Expected calls (construct sub) := by
  have climbs := climbs_iff_guarded (construct_forward sub) execution
  refine ⟨fun keeps => climbs.mp keeps.1, fun guarded => ⟨climbs.mpr guarded, ?_⟩⟩
  have forward : final.Forward :=
    PartialRun.invariant_of_guarded Forward
      (fun _ _ _ forward expected => forward.perform expected) execution guarded
      (construct_forward sub)
  exact forward.once

/-! ## Closed sockets -/

/-- The socket was closed all the time since `before` and showed quiet events and stages only. -/
structure Silenced (before after : Socket σ) : Prop where
  closed : after.status = .disconnected
  shows : ∃ shown, after.log = before.log ++ shown ∧
    ∀ event ∈ shown, quiet event ∨ ∃ status, event = .assigned status

theorem Silenced.refl {socket : Socket σ} (closed : socket.status = .disconnected) :
    Silenced socket socket :=
  ⟨closed, [], (List.append_nil _).symm, by simp⟩

theorem Silenced.trans {before middle after : Socket σ} (first : Silenced before middle)
    (second : Silenced middle after) : Silenced before after := by
  obtain ⟨-, shown, shown_eq, all⟩ := first
  obtain ⟨closed, more, more_eq, all_more⟩ := second
  refine ⟨closed, shown ++ more, by rw [more_eq, shown_eq, List.append_assoc], ?_⟩
  intro event mem
  rcases List.mem_append.mp mem with mem | mem
  · exact all event mem
  · exact all_more event mem

theorem Silenced.disconnect (socket : Socket σ) :
    Silenced socket (socket.assign .disconnected) :=
  ⟨rfl, [.assigned .disconnected], rfl, by simp⟩

/-- A quiet method leaves a closed socket closed. -/
theorem Silenced.subSteps {before after : Socket σ} (closed : before.status = .disconnected)
    (steps : SubSteps quiet before after) : Silenced before after := by
  refine ⟨?_, steps.log_extends⟩
  have rank_le := steps.rank_le
  rw [closed] at rank_le
  cases status_eq : after.status with
  | disconnected => rfl
  | _ =>
      rw [status_eq] at rank_le
      exact absurd rank_le (by decide)

/-- No call but `RealConnect` opens a closed socket. -/
theorem silenced_of_perform {cls : SocketClass σ ι} {call : Call ι} {before after : Socket σ}
    (others : ∀ kernel, call ≠ .realConnect kernel) (closed : before.status = .disconnected)
    (execution : perform cls call before = some after) : Silenced before after := by
  cases call with
  | setProtocol protocol =>
      cases execution
      exact ⟨closed, [], (List.append_nil _).symm, by simp⟩
  | setIpPort ip port =>
      cases execution
      exact ⟨closed, [], (List.append_nil _).symm, by simp⟩
  | connect now timeoutMs =>
      cases execution
      exact Silenced.subSteps closed (.single (.connect before now timeoutMs))
  | close =>
      cases execution
      exact Silenced.disconnect before
  | send data =>
      rw [perform, Option.map_eq_some_iff] at execution
      obtain ⟨⟨result, next⟩, sent, rfl⟩ := execution
      exact Silenced.subSteps closed (cls.send_within _ _ _ _ sent)
  | realConnect kernel => exact absurd rfl (others kernel)
  | realRead reads =>
      rw [perform, realRead, closed] at execution
      cases execution
      exact Silenced.disconnect before
  | realWrite soError input =>
      rw [perform, realWrite, closed] at execution
      cases execution
      exact Silenced.disconnect before

/-- In a run without `RealConnect` a closed socket stays closed. -/
theorem silenced_of_run {cls : SocketClass σ ι} {calls : List (Call ι)} {before after : Socket σ}
    (others : ∀ call ∈ calls, ∀ kernel, call ≠ .realConnect kernel)
    (closed : before.status = .disconnected)
    (execution : PartialRun.run (perform cls) calls before = some after) :
    Silenced before after :=
  PartialRun.invariant_of_mem (Silenced before)
    (fun call mem _ _ silenced step =>
      silenced.trans (silenced_of_perform (others call mem) silenced.closed step))
    execution (Silenced.refl closed)

/-- A kernel whose calls all succeed. -/
def obligingKernel : ConnectKernel where
  socket _ := 5
  fcntl := { getfl := fun _ => some 0, setfl := fun _ _ => true }
  connect _ _ _ := .ok

/-- The calls that connect a socket. -/
def connectCalls (input : ι) : List (Call ι) :=
  [.setIpPort [49, 46, 50, 46, 51, 46, 52] 80, .connect 0 0, .realConnect obligingKernel,
    .realWrite .clear input]

/-- The user closes a socket between the scan of the engine and `RealConnect`. -/
def closedBeforeRealConnect : List (Call WriteResult) :=
  [.setIpPort [49, 46, 50, 46, 51, 46, 52] 80, .connect 0 0, .close, .realConnect obligingKernel]

theorem keepsOrder_iff_guarded_closed :
    ∃ final, PartialRun.run (perform (Transmission.socketClass SocketHandler.sink))
        closedBeforeRealConnect (Transmission.construct ()) = some final ∧
      (final.KeepsOrder ↔
        PartialRun.Guarded (perform (Transmission.socketClass SocketHandler.sink)) Call.Expected
          closedBeforeRealConnect (Transmission.construct ())) :=
  ⟨_, rfl, keepsOrder_iff_guarded _ _ _ _ rfl⟩

/-- The `Close` is undone: the socket goes back from `DISCONNECTED` to `CONNECTING`. -/
theorem close_undone :
    ∃ final, PartialRun.run (perform (Transmission.socketClass SocketHandler.sink))
        closedBeforeRealConnect (Transmission.construct ()) = some final ∧
      final.history = [.init, .startConnect, .disconnected, .disconnected, .connecting] ∧
      ¬final.KeepsOrder :=
  ⟨_, rfl, by decide, fun keeps => absurd keeps.1 (by decide)⟩

end Socket
end NetworkBase
