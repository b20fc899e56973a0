import NetworkBase.Library.History
import NetworkBase.Transport.StatusOrder

/-!
# Callbacks behind the connection

Data and writes are reported, and the kernel is asked to read and write, only while the connection
that `RealConnect` made last was reported.  The status says so at the entry of `RealRead` and
`RealWrite`, and inside them the log does, whatever the callbacks make of the status.
-/

namespace NetworkBase
namespace Socket

variable {σ ι : Type}

/-! ## The law -/

/-- These events came since the latest `RealConnect`. -/
structure Since (earlier since : List Event) : Prop where
  split : ∃ before, earlier = before ++ .realConnect :: since
  latest : .realConnect ∉ since

/-- The latest `RealConnect` opened the descriptor. -/
def Attempted (fd : Int) (earlier : List Event) : Prop :=
  ∃ since, Since earlier since ∧ .opened fd ∈ since

/-- The latest `RealConnect` opened the descriptor, and the handler's `OnConnect` was called
since. -/
def Told (fd : Int) (earlier : List Event) : Prop :=
  ∃ since, Since earlier since ∧ .opened fd ∈ since ∧ .onConnect ∈ since

/-- What has to have happened before an event. -/
def AfterConnect (earlier : List Event) : Event → Prop
  | .onData _ _ => ∃ fd, Told fd earlier
  | .onWrite => ∃ fd, Told fd earlier
  | .kernelRead fd _ => Told fd earlier
  | .kernelWrite fd _ _ => Told fd earlier
  | _ => True

/-- No callback and no call of the kernel comes before the connection. -/
def FollowsConnection (log : List Event) : Prop := History.Throughout AfterConnect [] log

variable {fd : Int} {event : Event} {earlier since : List Event}

theorem Since.concat (began : Since earlier since) (other : event ≠ .realConnect) :
    Since (earlier ++ [event]) (since ++ [event]) := by
  obtain ⟨⟨before, rfl⟩, latest⟩ := began
  refine ⟨⟨before, by rw [List.append_assoc, List.cons_append]⟩, ?_⟩
  rw [List.mem_append, List.mem_singleton]
  exact not_or.mpr ⟨latest, other.symm⟩

theorem Attempted.concat (attempted : Attempted fd earlier) (other : event ≠ .realConnect) :
    Attempted fd (earlier ++ [event]) := by
  obtain ⟨since, began, opened⟩ := attempted
  exact ⟨_, began.concat other, List.mem_append_left _ opened⟩

theorem Attempted.told (attempted : Attempted fd earlier) : Told fd (earlier ++ [.onConnect]) := by
  obtain ⟨since, began, opened⟩ := attempted
  exact ⟨_, began.concat nofun, List.mem_append_left _ opened,
    List.mem_append_right _ (List.mem_singleton.mpr rfl)⟩

theorem Told.attempted (told : Told fd earlier) : Attempted fd earlier := by
  obtain ⟨since, began, opened, -⟩ := told
  exact ⟨since, began, opened⟩

theorem Told.concat (told : Told fd earlier) (other : event ≠ .realConnect) :
    Told fd (earlier ++ [event]) := by
  obtain ⟨since, began, opened, reported⟩ := told
  exact ⟨_, began.concat other, List.mem_append_left _ opened, List.mem_append_left _ reported⟩

/-- What a method shows that reads or writes on the descriptor. -/
theorem Told.serves (told : Told fd earlier) (ok : serving fd event) :
    AfterConnect earlier event ∧ event ≠ .realConnect := by
  cases event with
  | kernelWrite written buf result =>
      obtain rfl : written = fd := ok
      exact ⟨told, nofun⟩
  | onData offer result => exact ⟨⟨fd, told⟩, nofun⟩
  | onWrite => exact ⟨⟨fd, told⟩, nofun⟩
  | send | sslHandshake | sslRead | sslWrite | netSend | netRecv => exact ⟨trivial, nofun⟩
  | _ => exact absurd ok id

/-- What a quiet method shows is free. -/
theorem afterConnect_of_quiet (ok : quiet event) (earlier : List Event) :
    AfterConnect earlier event ∧ event ≠ .realConnect := by
  cases event with
  | send => exact ⟨trivial, nofun⟩
  | _ => exact absurd ok id

/-! ## Inside `RealRead` and `RealWrite` -/

/-- The law is kept, and the connection was reported. -/
structure Serving (socket : Socket σ) : Prop where
  law : FollowsConnection socket.log
  told : Told socket.fd socket.log

namespace Serving

variable {socket before after : Socket σ}

theorem congr (serving : before.Serving) (log_eq : after.log = before.log)
    (fd_eq : after.fd = before.fd) : after.Serving :=
  ⟨log_eq ▸ serving.law, by rw [log_eq, fd_eq]; exact serving.told⟩

theorem emit (serving : socket.Serving)
    (ok : AfterConnect socket.log event ∧ event ≠ .realConnect) : (socket.emit event).Serving :=
  ⟨serving.law.concat rfl ok.1, serving.told.concat ok.2⟩

theorem assign (serving : socket.Serving) (status : Status) :
    (socket.assign status).Serving := by
  have shown : (socket.emit (.assigned status)).Serving := serving.emit ⟨trivial, nofun⟩
  exact shown.congr rfl rfl

/-- `read` on the descriptor. -/
theorem read (serving : socket.Serving) (result : ReadResult) :
    (socket.emit (.kernelRead socket.fd result)).Serving := serving.emit ⟨serving.told, nofun⟩

theorem subSteps (serves : before.Serving)
    (steps : SubSteps (serving before.fd) before after) : after.Serving := by
  have kept : after.Serving ∧ after.fd = before.fd := by
    refine steps.preserves (fun socket => socket.Serving ∧ socket.fd = before.fd) ?_ ⟨serves, rfl⟩
    rintro first next step ⟨serves, fd_eq⟩
    cases step with
    | members sub => exact ⟨serves.congr rfl rfl, fd_eq⟩
    | event event ok => exact ⟨serves.emit (serves.told.serves (fd_eq ▸ ok)), fd_eq⟩
    | setProtocol protocol => exact ⟨serves.congr rfl rfl, fd_eq⟩
    | setIpPort ip port => exact ⟨serves.congr rfl rfl, fd_eq⟩
    | connect now timeoutMs =>
        have same := (connect_frame now timeoutMs first).1
        refine ⟨?_, same.trans fd_eq⟩
        rcases connect_cases now timeoutMs first with ⟨-, -, log_eq⟩ | ⟨-, log_eq⟩
        · exact (serves.assign .startConnect).congr log_eq same
        · exact serves.congr log_eq same
    | close => exact ⟨serves.assign .disconnected, fd_eq⟩
  exact kept.1

end Serving

/-! ## Between the calls -/

/-- The law is kept, and the status tells what was opened and reported. -/
structure Duly (socket : Socket σ) : Prop where
  law : FollowsConnection socket.log
  connecting : socket.status = .connecting → Attempted socket.fd socket.log
  connected : socket.status = .connected → Told socket.fd socket.log

theorem Serving.duly {socket : Socket σ} (serves : socket.Serving) : socket.Duly :=
  ⟨serves.law, fun _ => serves.told.attempted, fun _ => serves.told⟩

namespace Duly

variable {socket before after : Socket σ}

theorem construct (sub : σ) : (construct sub).Duly :=
  ⟨History.Throughout.start _ _, nofun, nofun⟩

theorem congr (duly : before.Duly) (log_eq : after.log = before.log) (fd_eq : after.fd = before.fd)
    (status_eq : after.status = before.status) : after.Duly := by
  refine ⟨log_eq ▸ duly.law, ?_, ?_⟩
  · rw [status_eq, log_eq, fd_eq]
    exact duly.connecting
  · rw [status_eq, log_eq, fd_eq]
    exact duly.connected

theorem emit (duly : socket.Duly) (ok : AfterConnect socket.log event ∧ event ≠ .realConnect) :
    (socket.emit event).Duly where
  law := duly.law.concat rfl ok.1
  connecting status := (duly.connecting status).concat ok.2
  connected status := (duly.connected status).concat ok.2

/-- A status that promises nothing. -/
theorem assign (duly : socket.Duly) {status : Status} (free : status ≠ .connecting)
    (unconnected : status ≠ .connected) : (socket.assign status).Duly where
  law := duly.law.concat rfl trivial
  connecting assigned := absurd assigned free
  connected assigned := absurd assigned unconnected

theorem connect (duly : socket.Duly) (now timeoutMs : Nat) :
    (socket.connect now timeoutMs).Duly := by
  have fd_eq := (connect_frame now timeoutMs socket).1
  rcases connect_cases now timeoutMs socket with ⟨-, status_eq, log_eq⟩ | ⟨status_eq, log_eq⟩
  · have started : (socket.assign .startConnect).Duly := duly.assign nofun nofun
    exact started.congr log_eq fd_eq status_eq
  · exact duly.congr log_eq fd_eq status_eq

theorem subSteps (duly : before.Duly) (steps : SubSteps quiet before after) : after.Duly := by
  refine steps.preserves Duly ?_ duly
  intro first next step duly
  cases step with
  | members sub => exact duly.congr rfl rfl rfl
  | event event ok => exact duly.emit (afterConnect_of_quiet ok first.log)
  | setProtocol protocol => exact duly.congr rfl rfl rfl
  | setIpPort ip port => exact duly.congr rfl rfl rfl
  | connect now timeoutMs => exact duly.connect now timeoutMs
  | close => exact duly.assign nofun nofun

/-- The report of the connection. -/
theorem report (duly : socket.Duly) (connecting : socket.status = .connecting) :
    ((socket.assign .connected).emit .onConnect).Serving := by
  have attempted : Attempted socket.fd (socket.assign .connected).log :=
    (duly.connecting connecting).concat nofun
  have assigned : FollowsConnection (socket.assign .connected).log := duly.law.concat rfl trivial
  exact ⟨assigned.concat rfl trivial, attempted.told⟩

/-- `RealConnect` begins anew. -/
theorem realConnect (duly : socket.Duly) (kernel : ConnectKernel) :
    (socket.realConnect kernel).Duly := by
  have opened : FollowsConnection (socket.openSocket kernel).log ∧
      Attempted (socket.openSocket kernel).fd (socket.openSocket kernel).log := by
    have entered : FollowsConnection (socket.log ++ [.realConnect]) := duly.law.concat rfl trivial
    rcases openSocket_cases kernel socket with ⟨-, -, log_eq⟩ | ⟨-, -, log_eq⟩
    · rw [log_eq]
      constructor
      · rw [List.append_cons]
        exact entered.concat rfl trivial
      · exact ⟨[.opened _], ⟨⟨socket.log, rfl⟩, by simp⟩, List.mem_singleton.mpr rfl⟩
    · rw [log_eq]
      constructor
      · rw [List.append_cons, List.append_cons]
        have gaveUp : FollowsConnection ((socket.log ++ [.realConnect]) ++
            [.assigned .disconnected]) := entered.concat rfl trivial
        exact gaveUp.concat rfl trivial
      · exact ⟨[.assigned .disconnected, .opened _], ⟨⟨socket.log, rfl⟩, by simp⟩, by simp⟩
  by_cases succeeds : socket.AttemptSucceeds kernel
  · rw [realConnect_of_succeeds succeeds]
    exact ⟨opened.1.concat rfl trivial, fun _ => opened.2.concat nofun, nofun⟩
  · rw [realConnect_of_fails succeeds]
    exact ⟨opened.1.concat rfl trivial, nofun, nofun⟩

theorem reads (cls : SocketClass σ ι) : ReadKept cls Serving Duly where
  leave _ := Serving.duly
  disconnect _ duly := duly.assign nofun nofun
  barren _ result serves _ := serves.read result
  gather _ chunk _ _ _ serves execution :=
    (serves.read (.got chunk)).subSteps (cls.onRead_within _ _ _ _ _ _ execution)
  offer _ chunk _ _ _ serves execution :=
    ((serves.read (.got chunk)).subSteps (cls.onRead_within _ _ _ _ _ _ execution)).duly

theorem writes (cls : SocketClass σ ι) : WriteServed cls Serving Duly where
  leave _ := Serving.duly
  disconnect _ duly := duly.assign nofun nofun
  onWrite _ _ _ _ serves execution := serves.subSteps (cls.onWrite_within _ _ _ _ execution)
  report _ _ duly connecting execution :=
    (duly.report connecting).subSteps
      ((cls.onConnect_within _ _ execution).mono (serving_of_quiet _))

theorem perform {cls : SocketClass σ ι} {call : Call ι} (duly : before.Duly)
    (execution : perform cls call before = some after) : after.Duly := by
  have entered (connected : before.status = .connected) : before.Serving :=
    ⟨duly.law, duly.connected connected⟩
  cases call with
  | setProtocol protocol =>
      cases execution
      exact duly.congr rfl rfl rfl
  | setIpPort ip port =>
      cases execution
      exact duly.congr rfl rfl rfl
  | connect now timeoutMs =>
      cases execution
      exact duly.connect now timeoutMs
  | close =>
      cases execution
      exact duly.assign nofun nofun
  | send data =>
      rw [Socket.perform, Option.map_eq_some_iff] at execution
      obtain ⟨⟨result, next⟩, sent, rfl⟩ := execution
      exact duly.subSteps (cls.send_within _ _ _ _ sent)
  | realConnect kernel =>
      cases execution
      exact duly.realConnect kernel
  | realRead reads => exact (Duly.reads cls).realRead execution duly entered
  | realWrite soError input => exact (writes cls).realWrite execution duly entered

end Duly

/-- In every run of calls on a socket of any class, and whatever its callbacks call meanwhile, no
callback and no call of the kernel comes before the connection. -/
theorem callbacks_follow_connection (cls : SocketClass σ ι) (sub : σ) (calls : List (Call ι))
    (final : Socket σ)
    (execution : PartialRun.run (perform cls) calls (construct sub) = some final) :
    FollowsConnection final.log := by
  have duly : final.Duly :=
    PartialRun.invariant Duly (fun _ _ _ duly step => duly.perform step) execution
      (Duly.construct sub)
  exact duly.law

/-- A fresh socket is connected, and its first `RealWrite` reports the connection and then that
nothing waits. -/
theorem callbacks_follow_connection_connectCalls :
    ∃ final, PartialRun.run (perform (Transmission.socketClass SocketHandler.sink))
        (connectCalls (.accepts 0)) (Transmission.construct ()) = some final ∧
      .onWrite ∈ final.log ∧ FollowsConnection final.log :=
  ⟨_, rfl, by decide, callbacks_follow_connection (Transmission.socketClass SocketHandler.sink)
    (Transmission.construct ()).sub (connectCalls (.accepts 0)) _ rfl⟩

end Socket
end NetworkBase
