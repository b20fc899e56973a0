import NetworkBase.Engine.Disconnects
import NetworkBase.Transport.Descriptor

/-!
# Every descriptor is closed once

`RealConnect` overwrites the descriptor of a socket, and `RealDisconnect` closes it unless it is
zero.  As long as no round finds a socket connecting, `RealConnect` is called at most once on each
socket, and `RealDisconnect` once behind it.
-/

namespace NetworkBase

namespace Socket

variable {σ : Type} {before after : Socket σ}

/-- Nothing was opened yet. -/
structure Unopened (socket : Socket σ) : Prop where
  fd : socket.fd = 0
  log : socket.descriptorLog = []

/-- One descriptor was opened, and the socket is beyond `START_CONNECT`. -/
structure Opened (socket : Socket σ) : Prop where
  fd : socket.fd ≠ 0
  log : socket.descriptorLog = [.opened socket.fd]
  beyond : 2 ≤ socket.status.rank

/-- What was opened is closed. -/
def Shut (socket : Socket σ) : Prop :=
  socket.descriptorLog = [] ∨ ∃ fd, socket.descriptorLog = [.opened fd, .closed fd]

theorem Unopened.same (unopened : Unopened before) (same : SameDescriptor before after) :
    Unopened after := ⟨same.fd.trans unopened.fd, same.log.trans unopened.log⟩

theorem Opened.same (opened : Opened before) (same : SameDescriptor before after)
    (beyond : 2 ≤ before.status.rank → 2 ≤ after.status.rank) : Opened after where
  fd := by
    rw [same.fd]
    exact opened.fd
  log := by
    rw [same.log, same.fd]
    exact opened.log
  beyond := beyond opened.beyond

theorem Shut.same (shut : Shut before) (same : SameDescriptor before after) : Shut after := by
  rw [Shut, same.log]
  exact shut

/-- The first `RealConnect` of a socket opens its descriptor, which is not zero. -/
theorem Unopened.realConnect {kernel : ConnectKernel} (unopened : Unopened before)
    (nonzero : ∀ kind, kernel.socket kind ≠ 0) : Opened (before.realConnect kernel) := by
  obtain ⟨⟨kind, fd_eq⟩, log_eq, status_eq⟩ := realConnect_opens kernel before
  refine ⟨?_, ?_, ?_⟩
  · rw [fd_eq]
    exact nonzero kind
  · rw [log_eq, unopened.log, List.nil_append]
  · rcases status_eq with connecting | disconnected
    · rw [connecting]
      decide
    · rw [disconnected]
      decide

/-- `RealDisconnect` closes what was opened. -/
theorem shut_of_realDisconnect {ι : Type} {cls : SocketClass σ ι}
    (life : Unopened before ∨ Opened before)
    (execution : realDisconnect cls before = some after) : Shut after := by
  obtain ⟨-, log_eq⟩ := realDisconnect_closes execution
  rcases life with unopened | opened
  · rw [if_pos unopened.fd, unopened.log] at log_eq
    exact .inl log_eq
  · rw [if_neg opened.fd, opened.log] at log_eq
    exact .inr ⟨before.fd, log_eq⟩

theorem conserved_of_shut {socket : Socket σ} (shut : Shut socket) : Conserved socket.log := by
  apply Conserved.of_filter
  rcases shut with nothing | ⟨fd, pair⟩
  · have log_eq : socket.log.filter Event.onDescriptor = [] := nothing
    rw [log_eq]
    exact conserved_nil
  · have log_eq : socket.log.filter Event.onDescriptor = [.opened fd, .closed fd] := pair
    rw [log_eq]
    exact conserved_pair fd

end Socket

namespace Engine

variable {σ ι τ : Type} {cls : SocketClass σ ι} {mux : IoMultiplexing τ} {env : Environment ι}
  {before after : Engine σ τ} {socket : SocketPtr}

/-- Neither `RealConnect` nor `RealDisconnect` was called on the socket. -/
structure Spared (socket : SocketPtr) (before after : Engine σ τ) : Prop where
  descriptor : Socket.SameDescriptor (before.heap socket) (after.heap socket)
  beyond : 2 ≤ (before.heap socket).status.rank → 2 ≤ (after.heap socket).status.rank
  trace : ∃ events, after.trace = before.trace ++ events ∧ socket ∉ disconnects events

namespace Spared

theorem refl (socket : SocketPtr) (engine : Engine σ τ) : Spared socket engine engine :=
  ⟨.refl _, id, [], (List.append_nil _).symm, List.not_mem_nil⟩

theorem trans {middle : Engine σ τ} (first : Spared socket before middle)
    (second : Spared socket middle after) : Spared socket before after := by
  obtain ⟨early, early_eq, early_none⟩ := first.trace
  obtain ⟨late, late_eq, late_none⟩ := second.trace
  refine ⟨first.descriptor.trans second.descriptor, second.beyond ∘ first.beyond, early ++ late,
    ?_, ?_⟩
  · rw [late_eq, early_eq, List.append_assoc]
  · rw [disconnects, List.filterMap_append, List.mem_append]
    exact fun mem => mem.elim early_none late_none

/-- A step without a call into a socket, in which others use its public methods. -/
theorem of_grown (grown : Grown before after)
    (steps : Socket.SubSteps Socket.quiet (before.heap socket) (after.heap socket)) :
    Spared socket before after := by
  obtain ⟨events, trace_eq, passive, -, -⟩ := grown.shown
  refine ⟨.of_quiet steps, fun beyond => beyond.trans steps.rank_le, events, trace_eq, ?_⟩
  rw [disconnects_of_passive passive]
  exact List.not_mem_nil

theorem of_same (heap_eq : after.heap = before.heap) (trace_eq : after.trace = before.trace) :
    Spared socket before after := by
  refine ⟨?_, ?_, [], trace_eq.trans (List.append_nil _).symm, List.not_mem_nil⟩
  · rw [heap_eq]
    exact .refl _
  · rw [heap_eq]
    exact id

theorem interrupt (execution : interrupt cls env before = some after) :
    Spared socket before after :=
  of_grown (Grown.interrupt execution) (interrupt_object execution socket)

/-- The call is shown in the trace. -/
theorem trace_of_call {call : RealCall} {method : Socket σ → Option (Socket σ)}
    {other : SocketPtr} (spares : call = .disconnect → other ≠ socket)
    (execution : callSocket cls env call method other before = some after) :
    ∃ events, after.trace = before.trace ++ events ∧ socket ∉ disconnects events := by
  obtain ⟨events, trace_eq, passive, -, -⟩ := (grown_of_callSocket execution).shown
  refine ⟨.called call other :: events, ?_, ?_⟩
  · rw [trace_eq, record, List.append_assoc]
    rfl
  · rw [mem_disconnects, List.mem_cons]
    rintro (named | later)
    · injection named with disconnect same
      exact spares disconnect.symm same.symm
    · exact passive _ later .disconnect socket rfl

/-- A call into another socket, or one that keeps the descriptor. -/
theorem call {call : RealCall} {method : Socket σ → Option (Socket σ)} {other : SocketPtr}
    (spares : call = .disconnect → other ≠ socket)
    (keeps : other = socket → ∀ next, method (before.heap socket) = some next →
      Socket.SameDescriptor (before.heap socket) next ∧
        (2 ≤ (before.heap socket).status.rank → 2 ≤ next.status.rank))
    (execution : callSocket cls env call method other before = some after) :
    Spared socket before after := by
  obtain ⟨⟨next, called, steps⟩, others⟩ := callSocket_object execution
  by_cases same : other = socket
  · subst same
    obtain ⟨kept, beyond⟩ := keeps rfl next called
    exact ⟨kept.trans (.of_quiet steps), fun early => (beyond early).trans steps.rank_le,
      trace_of_call spares execution⟩
  · have steps := others socket (Ne.symm same)
    exact ⟨.of_quiet steps, fun beyond => beyond.trans steps.rank_le,
      trace_of_call spares execution⟩

/-- The worker may read and write on the socket, and call others as it likes. -/
theorem attends (cls : SocketClass σ ι) (mux : IoMultiplexing τ) (env : Environment ι)
    (socket : SocketPtr) :
    Attends cls mux env (fun call other => call = .connect ∨ call = .disconnect → other ≠ socket)
      (Spared socket : Engine σ τ → Engine σ τ → Prop) where
  refl := refl socket
  trans _ _ _ := trans
  interrupt _ _ := interrupt
  dispatch _ _ := of_same rfl rfl
  fdCheck _ _ := of_same rfl rfl
  connect _ _ _ listed := call (fun _ => listed (.inl rfl))
    fun same => absurd same (listed (.inl rfl))
  write _ _ _ _ := call (fun write => nomatch write) fun _ _ written =>
    ⟨.realWrite written, (Socket.kept_beyond cls).realWrite written⟩
  read _ _ _ _ := call (fun read => nomatch read) fun _ _ read =>
    ⟨.realRead read, (Socket.kept_beyond cls).realRead read⟩
  deleteFd fd engine := of_grown (Grown.deleteFd mux fd engine) (.refl _)
  disconnect _ _ _ listed := call (fun _ => listed (.inr rfl))
    fun same => absurd same (listed (.inr rfl))

/-- What entered the engine stays entered. -/
theorem mem_adds (spared : Spared socket before after) (entered : socket ∈ adds before.trace) :
    socket ∈ adds after.trace := by
  obtain ⟨events, trace_eq, -⟩ := spared.trace
  rw [trace_eq, adds, admitted_append, List.map_append]
  exact List.mem_append_left _ entered

theorem mem_disconnects (spared : Spared socket before after) :
    socket ∈ disconnects after.trace ↔ socket ∈ disconnects before.trace := by
  obtain ⟨events, trace_eq, none_shown⟩ := spared.trace
  rw [trace_eq, disconnects, List.filterMap_append, List.mem_append]
  exact or_iff_left none_shown

theorem wake (execution : wake cls mux env before = some after) : Spared socket before after :=
  of_grown (Grown.wake execution) (wake_object execution socket)

theorem waitForSockets {ret : Int}
    (execution : waitForSockets cls mux env before = some (ret, after)) :
    Spared socket before after :=
  waitForSockets_keeps (Spared socket) (fun _ _ _ => trans) (fun _ _ => interrupt)
    (fun _ _ => of_same rfl rfl) (fun _ _ => of_same rfl rfl) (fun _ _ => of_same rfl rfl) execution

/-- The scan keeps the descriptors. -/
theorem of_sights {entries : List (Nat × SocketPtr)} {seen : List (Status × Nat × SocketPtr)}
    (sights : Sights entries before seen after) (trace_eq : after.trace = before.trace) :
    Spared socket before after :=
  ⟨.of_quiet (sights.steps socket), fun beyond => beyond.trans (sights.steps socket).rank_le, [],
    trace_eq.trans (List.append_nil _).symm, List.not_mem_nil⟩

/-- `Close` of any socket, as `afterThread` calls it. -/
theorem close (other : SocketPtr) (engine : Engine σ τ) :
    Spared socket engine (engine.store other (engine.heap other).close) := by
  refine of_grown (Grown.of_same rfl rfl rfl) ?_
  by_cases same : socket = other
  · subst same
    rw [heap_store_self]
    exact .single (.close _)
  · rw [heap_store_of_ne same]
    exact .refl _

end Spared

theorem count_adds_le (shown : before.trace <+: after.trace) :
    (adds before.trace).count socket ≤ (adds after.trace).count socket :=
  ((shown.filterMap admittedEntry).map Prod.snd).sublist.count_le socket

/-! ## The life of a socket -/

/-- A socket that was not disconnected has opened nothing, or entered the engine and opened one
descriptor; what a disconnected one had opened is closed. -/
structure Life (socket : SocketPtr) (engine : Engine σ τ) : Prop where
  alive : socket ∉ disconnects engine.trace → (engine.heap socket).Unopened ∨
    ((engine.heap socket).Opened ∧ socket ∈ adds engine.trace)
  shut : socket ∈ disconnects engine.trace → (engine.heap socket).Shut

/-- What is called on a socket that enters the engine once, as long as no round finds it
connecting. -/
structure Ready (socket : SocketPtr) (engine : Engine σ τ) : Prop where
  unopened : (engine.heap socket).Unopened
  entered : socket ∈ adds engine.trace
  alive : socket ∉ disconnects engine.trace

theorem Ready.spared (ready : Ready socket before) (spared : Spared socket before after) :
    Ready socket after where
  unopened := ready.unopened.same spared.descriptor
  entered := spared.mem_adds ready.entered
  alive := fun gone => ready.alive (spared.mem_disconnects.mp gone)

/-- A socket that the scan finds starting to connect has opened nothing. -/
theorem Life.ready {owed : Nat} {snapshot pending : List SocketPtr} (life : Life socket before)
    (accounted : Accounted socket owed snapshot pending before)
    (once : (adds before.trace).count socket ≤ 1) (present : socket ∈ before.sockets.values)
    (moves : (before.heap socket).status.Moves .startConnect) : Ready socket before := by
  have on_way := List.mem_append_left pending present
  have alive := accounted.not_disconnected on_way once
  refine ⟨?_, accounted.entered on_way, alive⟩
  rcases life.alive alive with unopened | ⟨opened, -⟩
  · exact unopened
  · have beyond := opened.beyond
    rcases moves with same | gone | ⟨fresh, -⟩
    · rw [← same] at beyond
      exact absurd beyond (by decide)
    · cases gone
    · rw [fresh] at beyond
      exact absurd beyond (by decide)

namespace Life

theorem spared (life : Life socket before) (spared : Spared socket before after) :
    Life socket after where
  alive alive := by
    rcases life.alive (fun gone => alive (spared.mem_disconnects.mpr gone)) with
      unopened | ⟨opened, entered⟩
    · exact .inl (unopened.same spared.descriptor)
    · exact .inr ⟨opened.same spared.descriptor spared.beyond, spared.mem_adds entered⟩
  shut gone := (life.shut (spared.mem_disconnects.mp gone)).same spared.descriptor

/-- `RealConnect` opens the descriptor of a socket that has none. -/
theorem realConnect (nonzero : ∀ time kind, (env.connect time).socket kind ≠ 0)
    (ready : Ready socket before) (execution : realConnect cls env socket before = some after) :
    Life socket after := by
  have shown : ∃ events, after.trace = before.trace ++ events ∧ socket ∉ disconnects events :=
    Spared.trace_of_call (by simp) execution
  obtain ⟨events, trace_eq, none_shown⟩ := shown
  obtain ⟨⟨next, called, steps⟩, -⟩ := callSocket_object execution
  obtain rfl := Option.some.inj called
  have alive : socket ∉ disconnects after.trace := by
    rw [trace_eq, disconnects, List.filterMap_append, List.mem_append]
    exact fun mem => mem.elim ready.alive none_shown
  refine ⟨fun _ => .inr ⟨?_, ?_⟩, fun gone => absurd gone alive⟩
  · exact (ready.unopened.realConnect (nonzero before.time)).same (.of_quiet steps)
      fun beyond => beyond.trans steps.rank_le
  · rw [trace_eq, adds, admitted_append, List.map_append]
    exact List.mem_append_left _ ready.entered

/-- The loop over the sockets that start to connect calls each of them once. -/
theorem startConnects (mux : IoMultiplexing τ)
    (nonzero : ∀ time kind, (env.connect time).socket kind ≠ 0)
    {entries : List (Nat × SocketPtr)} (life : Life socket before)
    (ready : socket ∈ entries.map Prod.snd → Ready socket before)
    (once : (entries.map Prod.snd).count socket ≤ 1)
    (execution : startConnects cls env entries before = some after) : Life socket after := by
  induction entries generalizing before with
  | nil =>
      cases execution
      exact life
  | cons entry entries ih =>
      simp only [Engine.startConnects, Option.bind_eq_bind, Option.bind_eq_some_iff] at execution
      obtain ⟨first, interrupted, second, connected, rest⟩ := execution
      have disturbed : Spared socket before first := .interrupt interrupted
      rw [List.map_cons, List.count_cons] at once
      by_cases same : entry.2 = socket
      · have first_ready := (ready (same ▸ List.mem_cons_self ..)).spared disturbed
        rw [same] at connected
        have absent : socket ∉ entries.map Prod.snd := by
          intro later
          have counted := List.count_pos_iff.mpr later
          rw [if_pos (beq_iff_eq.mpr same)] at once
          omega
        exact ih (realConnect nonzero first_ready connected) (fun later => absurd later absent)
          (by omega) rest
      · have called : Spared socket before second :=
          disturbed.trans ((Spared.attends cls mux env socket).connect _ _ _ (fun _ => same)
            connected)
        exact ih (life.spared called)
          (fun later => (ready (List.mem_cons_of_mem _ later)).spared called) (by omega) rest

/-- `RealDisconnect` of a socket that is about to be disconnected. -/
theorem realDisconnect (mux : IoMultiplexing τ) {other : SocketPtr} {owed : Nat}
    {snapshot pending : List SocketPtr} (life : Life socket before)
    (accounted : Accounted socket owed snapshot (other :: pending) before)
    (once : (adds before.trace).count socket ≤ 1)
    (execution : realDisconnect cls env other before = some after) : Life socket after := by
  by_cases same : other = socket
  · subst same
    have alive := accounted.not_disconnected
      (List.mem_append_right _ (List.mem_cons_self ..)) once
    obtain ⟨⟨next, called, steps⟩, -⟩ := callSocket_object execution
    obtain ⟨events, trace_eq, -⟩ := (grown_of_callSocket execution).shown
    have gone : other ∈ disconnects after.trace := by
      rw [Engine.mem_disconnects, trace_eq, record]
      simp
    refine ⟨fun alive => absurd gone alive, fun _ => ?_⟩
    exact (Socket.shut_of_realDisconnect ((life.alive alive).imp_right And.left) called).same
      (.of_quiet steps)
  · exact life.spared ((Spared.attends cls mux env socket).disconnect _ _ _ (fun _ => same)
      execution)

/-- The loop over the disconnected sockets. -/
theorem closeInvalid {entries : List (Nat × SocketPtr)} {owed : Nat} {snapshot : List SocketPtr}
    (life : Life socket before)
    (accounted : Accounted socket owed snapshot (entries.map Prod.snd) before)
    (once : (adds after.trace).count socket ≤ 1)
    (execution : closeInvalid cls mux env entries before = some after) : Life socket after := by
  induction entries generalizing before with
  | nil =>
      cases execution
      exact life
  | cons entry entries ih =>
      have progress := Progress.follows cls mux env
      simp only [Engine.closeInvalid, Option.bind_eq_bind, Option.bind_eq_some_iff] at execution
      obtain ⟨first, interrupted, second, disconnected, rest⟩ := execution
      have deleted := Grown.deleteFd mux (if (first.heap entry.2).fd < 0 then 1 else 0) first
      have later := (Progress.called disconnected).trans
        (progress.closeInvalid (fun _ _ => trivial) rest)
      have pending := (accounted.grown (Grown.interrupt interrupted)).grown deleted
      have spared : Spared socket before _ :=
        (Spared.interrupt interrupted).trans (.of_grown deleted (.refl _))
      exact ih ((life.spared spared).realDisconnect mux pending
        ((count_adds_le later.trace).trans once) disconnected) (pending.realDisconnect disconnected)
        rest

/-- The loop of `afterThread`. -/
theorem closeAll (mux : IoMultiplexing τ) {entries : List (Nat × SocketPtr)} {owed : Nat}
    {snapshot : List SocketPtr} (life : Life socket before)
    (accounted : Accounted socket owed snapshot (entries.map Prod.snd) before)
    (once : (adds after.trace).count socket ≤ 1)
    (execution : closeAll cls env entries before = some after) : Life socket after := by
  induction entries generalizing before with
  | nil =>
      cases execution
      exact life
  | cons entry entries ih =>
      have progress := Progress.follows cls mux env
      simp only [Engine.closeAll, Option.bind_eq_bind, Option.bind_eq_some_iff] at execution
      obtain ⟨first, interrupted, second, interrupted', third, disconnected, rest⟩ := execution
      have closed : Grown first (first.store entry.2 (first.heap entry.2).close) :=
        Grown.of_same rfl rfl rfl
      have later := (Progress.called disconnected).trans (progress.closeAll
        (fun _ _ => Progress.of_grown (Grown.of_same rfl rfl rfl)) (fun _ _ => trivial) rest)
      have pending := ((accounted.grown (Grown.interrupt interrupted)).grown closed).grown
        (Grown.interrupt interrupted')
      have spared : Spared socket before second :=
        ((Spared.interrupt interrupted).trans (.close entry.2 first)).trans
          (.interrupt interrupted')
      exact ih ((life.spared spared).realDisconnect mux pending
        ((count_adds_le later.trace).trans once) disconnected) (pending.realDisconnect disconnected)
        rest

/-- A socket that the scan found starting to connect is ready behind the loop over the disconnected
ones, and was none of them. -/
theorem ready_of_round {owed : Nat} {seen : List (Status × Nat × SocketPtr)} {found : Scan}
    {ret : Int} {awake scanned closed started : Engine σ τ} {entry : Nat × SocketPtr}
    (round : Round cls mux env seen found ret before awake scanned closed started after)
    (life : Life entry.2 (awake.lock .worker))
    (accounted : Accounted entry.2 owed [] [] (awake.lock .worker))
    (once : (adds (awake.lock .worker).trace).count entry.2 ≤ 1)
    (starting : (.startConnect, entry) ∈ seen) : Ready entry.2 closed := by
  have polled : entry ∈ (awake.lock .worker).sockets.entries := by
    have sighted := List.mem_map_of_mem (f := Prod.snd) starting
    rwa [round.sights.entries] at sighted
  have listed : entry ∈ found.startConnect.entries := by
    rw [round.startConnect]
    exact mem_withStatus.mpr ⟨_, starting, rfl⟩
  have stays := List.mem_map_of_mem (f := Prod.snd)
    (round.books.sifted.startConnect entry listed).1
  have once_scanned : (adds scanned.trace).count entry.2 ≤ 1 := by
    rw [round.books.trace]
    exact once
  -- The socket is in `sockets_` behind the scan, so it is not among the disconnected ones.
  have absent := (accounted.scanned round.books).not_pending stays once_scanned
  have ready := life.ready accounted once (List.mem_map_of_mem polled)
    (round.sights.status _ starting).1
  have scanning : Spared entry.2 (awake.lock .worker) (scanned.unlock .worker) :=
    (Spared.of_sights round.sights round.books.trace).trans
      (.of_grown (Grown.unlock .worker scanned) (.refl _))
  refine (ready.spared scanning).spared
    ((Spared.attends cls mux env entry.2).closeInvalid ?_ round.closing)
  intro other other_mem _ same
  exact absent (same ▸ List.mem_map_of_mem other_mem)

/-- A round that does not find the socket connecting. -/
theorem round {owed : Nat} {seen : List (Status × Nat × SocketPtr)} {found : Scan}
    {ret : Int} {awake scanned closed started : Engine σ τ} (life : Life socket before)
    (accounted : Accounted socket owed [] [] before)
    (nonzero : ∀ time kind, (env.connect time).socket kind ≠ 0)
    (round : Round cls mux env seen found ret before awake scanned closed started after)
    (unfound : ∀ entry ∈ withStatus (· = .connecting) seen, entry.2 ≠ socket)
    (once : (adds after.trace).count socket ≤ 1) : Life socket after := by
  have locked : Grown awake (awake.lock .worker) := Grown.lock .worker awake
  have unlocked : Grown scanned (scanned.unlock .worker) := Grown.unlock .worker scanned
  have locked_accounted := (accounted.grown (Grown.wake round.woken)).grown locked
  have locked_life := (life.spared (.wake round.woken)).spared (.of_grown locked (.refl _))
  have once_closed := (count_adds_le round.progress.2.trace).trans once
  have once_locked : (adds (awake.lock .worker).trace).count socket ≤ 1 := by
    rw [← round.books.trace]
    exact (count_adds_le ((Progress.of_grown unlocked).trans round.progress.1).trace).trans
      once_closed
  have scanned_life := (locked_life.spared (.of_sights round.sights round.books.trace)).spared
    (.of_grown unlocked (.refl _))
  have closed_life := scanned_life.closeInvalid
    ((locked_accounted.scanned round.books).grown unlocked) once_closed round.closing
  have started_life := closed_life.startConnects mux nonzero ?_ ?_ round.starting
  · exact started_life.spared ((Spared.attends cls mux env socket).dispatchReady
      (fun _ _ => ⟨fun other => absurd other (by decide), fun other => absurd other (by decide)⟩)
      round.serving)
  · intro listed
    obtain ⟨entry, entry_mem, rfl⟩ := List.mem_map.mp listed
    rw [round.startConnect] at entry_mem
    obtain ⟨status, mem, status_eq⟩ := mem_withStatus.mp entry_mem
    rcases of_decide_eq_true status_eq with rfl | rfl
    · exact ready_of_round round locked_life locked_accounted once_locked mem
    · exact absurd rfl (unfound entry (mem_withStatus.mpr ⟨_, mem, rfl⟩))
  · have part : (found.startConnect.entries.map Prod.snd).Sublist awake.sockets.values := by
      rw [round.startConnect]
      exact (round.sights.withStatus_sublist _).map Prod.snd
    have balance : awake.sockets.values.count socket + 0 + _ = _ := locked_accounted.balance
    have bounded := part.count_le socket
    omega

theorem readThread {owed : Nat} {ret : Int} (life : Life socket before)
    (accounted : Accounted socket owed [] [] before)
    (nonzero : ∀ time kind, (env.connect time).socket kind ≠ 0)
    (unfound : ∀ seen, observed cls mux env before = some seen →
      ∀ entry ∈ withStatus (· = .connecting) seen, entry.2 ≠ socket)
    (once : (adds after.trace).count socket ≤ 1)
    (execution : readThread cls mux env before = some (ret, after)) : Life socket after := by
  rcases readThread_cases execution with ⟨awake, woken, -, -, waited⟩ |
    ⟨seen, found, awake, scanned, closed, started, round⟩
  · have unlocked : Spared socket awake (awake.unlock .worker) :=
      .of_grown (Grown.unlock .worker awake) (.refl _)
    exact (life.spared (.wake woken)).spared (unlocked.trans (.waitForSockets waited))
  · exact life.round accounted nonzero round (unfound seen round.observed) once

end Life

/-- In none of this many rounds the scan finds the socket connecting. -/
def NeverConnecting (cls : SocketClass σ ι) (mux : IoMultiplexing τ) (env : Environment ι)
    (socket : SocketPtr) : Nat → Engine σ τ → Prop
  | 0, _ => True
  | count + 1, engine =>
      (∀ seen, observed cls mux env engine = some seen →
        ∀ entry ∈ withStatus (· = .connecting) seen, entry.2 ≠ socket) ∧
      ∀ ret next, readThread cls mux env engine = some (ret, next) → 0 ≤ ret →
        NeverConnecting cls mux env socket count next

theorem Life.rounds {count : Nat} (life : Life socket before)
    (accounted : Accounted socket 0 [] [] before)
    (nonzero : ∀ time kind, (env.connect time).socket kind ≠ 0)
    (never : NeverConnecting cls mux env socket count before)
    (once : (adds after.trace).count socket ≤ 1)
    (execution : rounds cls mux env count before = some after) : Life socket after := by
  induction count generalizing before with
  | zero =>
      cases execution
      exact life
  | succ count ih =>
      simp only [Engine.rounds, Option.bind_eq_bind, Option.bind_eq_some_iff] at execution
      obtain ⟨⟨ret, middle⟩, round, execution⟩ := execution
      obtain ⟨unfound, later⟩ := never
      split at execution
      · cases execution
        exact life.readThread accounted nonzero unfound once round
      · rename_i succeeds
        have once_middle := (count_adds_le (rounds_trace execution)).trans once
        exact ih (life.readThread accounted nonzero unfound once_middle round)
          (accounted.readThread round) (later ret middle round (not_lt.mp succeeds)) execution

/-- Taking the sockets out of `sockets_` calls none of them. -/
theorem Spared.swapOut (engine : Engine σ τ) : Spared socket engine engine.swapOut.2 := by
  refine ⟨.refl _, id, [.lock .worker, .swapped, .unlock .worker], ?_, ?_⟩
  · simp [Engine.swapOut, lock, unlock, record]
  · simp [disconnects, disconnectedSocket]

/-- `afterThread` closes what is open. -/
theorem Life.afterThread (mux : IoMultiplexing τ) (life : Life socket before)
    (accounted : Accounted socket 0 [] [] before) (once : (adds after.trace).count socket ≤ 1)
    (execution : afterThread cls env before = some after) : (after.heap socket).Shut := by
  simp only [Engine.afterThread, Option.bind_eq_bind, Option.bind_eq_some_iff] at execution
  obtain ⟨swapped, interrupted, closed⟩ := execution
  have swapped_life := life.spared (.interrupt interrupted)
  have before_swap := accounted.grown (Grown.interrupt interrupted)
  have swapping : Spared socket swapped swapped.swapOut.2 := .swapOut swapped
  by_cases added : socket ∈ adds swapped.trace
  · have pending := before_swap.swapOut added
    have ended := pending.closeAll closed
    have enough := ended.enough
    rw [List.count_nil, Nat.zero_add] at enough
    exact ((swapped_life.spared swapping).closeAll mux pending once closed).shut
      (List.count_pos_iff.mp enough)
  · have balance := before_swap.balance
    have none_added := List.count_eq_zero.mpr added
    have absent : socket ∉ swapped.sockets.values := List.count_eq_zero.mp (by omega)
    have alive : socket ∉ disconnects swapped.trace := List.count_eq_zero.mp (by omega)
    have unopened := (swapped_life.alive alive).resolve_right fun opened => added opened.2
    have spared := swapping.trans ((Spared.attends cls mux env socket).closeAll
      (fun other engine => .close other engine)
      (fun entry mem _ same => absent (same ▸ List.mem_map_of_mem mem)) closed)
    exact .inl (unopened.same spared.descriptor).log

/-- Whatever happens meanwhile, a socket that had no descriptor, is added once and is never found
connecting has closed each descriptor it opened once when the worker has ended, and never owned
two: its log only grows. -/
theorem descriptors_conserved (cls : SocketClass σ ι) (mux : IoMultiplexing τ)
    (env : Environment ι) (nonzero : ∀ time kind, (env.connect time).socket kind ≠ 0) (io : τ)
    (heap : SocketPtr → Socket σ) (socket : SocketPtr) (unopened : (heap socket).Unopened)
    (count : Nat) (never : NeverConnecting cls mux env socket count (construct io heap))
    (final : Engine σ τ)
    (execution : thread cls mux env count (construct io heap) = some final)
    (once : (adds final.trace).count socket ≤ 1) : Conserved (final.heap socket).log := by
  simp only [thread, Option.bind_eq_bind, Option.bind_eq_some_iff] at execution
  obtain ⟨served, looped, ended⟩ := execution
  have start : Life socket (construct io heap : Engine σ τ) :=
    ⟨fun _ => .inl unopened, fun gone => absurd gone List.not_mem_nil⟩
  have accounted := Accounted.construct socket io heap
  have once_served := (count_adds_le (afterThread_trace mux ended)).trans once
  have life := start.rounds accounted nonzero never once_served looped
  exact Socket.conserved_of_shut (life.afterThread mux (accounted.rounds looped) once ended)


/-- Another thread adds a socket and starts its connection, and the kernel opens another descriptor
every time. -/
def addAndOpen : Environment WriteResult :=
  { addAndConnect with
    connect := fun time => { Socket.obligingKernel with socket := fun _ => 10 + time } }

/-- A socket is closed by `afterThread` while it is connecting. -/
theorem descriptors_conserved_addAndOpen :
    ∃ final : Engine (Transmission Unit) Unit,
      thread (Transmission.socketClass SocketHandler.sink) idleMux addAndOpen 1
        (construct () fun _ => Transmission.construct ()) = some final ∧
      (final.heap 3).descriptorLog = [.opened 14, .closed 14] ∧ Conserved (final.heap 3).log := by
  have nonzero : ∀ time kind, (addAndOpen.connect time).socket kind ≠ 0 := by
    intro time kind
    have answer : (addAndOpen.connect time).socket kind = 10 + time := rfl
    omega
  refine ⟨_, rfl, rfl, descriptors_conserved (Transmission.socketClass SocketHandler.sink) idleMux
    addAndOpen nonzero () (fun _ => Transmission.construct ()) 3 ⟨rfl, rfl⟩ 1 ?_ _ rfl ?_⟩
  · refine ⟨?_, fun _ _ _ _ => trivial⟩
    intro seen observing entry mem
    have found : observed (Transmission.socketClass SocketHandler.sink) idleMux addAndOpen
        (construct () fun _ => Transmission.construct ()) = some [(.startConnect, 1, 3)] := rfl
    obtain rfl := Option.some.inj (found.symm.trans observing)
    exact absurd mem List.not_mem_nil
  · exact Nat.le_refl 1

/-- A socket that is found connecting in the second round opens another descriptor, and the first is
never closed. -/
theorem reconnecting_leaks :
    ∃ final : Engine (Transmission Unit) Unit,
      thread (Transmission.socketClass SocketHandler.sink) idleMux addAndOpen 2
        (construct () fun _ => Transmission.construct ()) = some final ∧
      adds final.trace = [3] ∧
      (final.heap 3).descriptorLog = [.opened 14, .opened 20, .closed 20] ∧
      ¬Conserved (final.heap 3).log := by
  refine ⟨_, rfl, rfl, rfl, ?_⟩
  intro conserved
  have closed := conserved.closed
  rw [← filterMap_onDescriptor fun event other => (Event.openedFd_of_onDescriptor other).1,
    ← filterMap_onDescriptor fun event other => (Event.openedFd_of_onDescriptor other).2] at closed
  exact absurd (congrArg List.length closed) (show ¬1 = 2 by decide)

end Engine
end NetworkBase
