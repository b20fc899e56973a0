import NetworkBase.Engine.Descriptors
import NetworkBase.Engine.Stages
import NetworkBase.Engine.WakeUp

/-!
# A kernel that rejects short addresses

`RealConnect` passes the value of a comparison where `connect` expects the length of the address,
so the kernel is always shown an address without a single byte.  A kernel that answers this with
`EINVAL` decides every attempt at once: no socket is ever connecting, a socket that starts to
connect is given up in the same round and disconnected in the next, and as none of them meets
`RealConnect` a second time, every descriptor is closed.
-/

namespace NetworkBase

/-- `connect` answers `EINVAL` to an address that is shorter than a `sockaddr_in`. -/
def Environment.RejectsShort {ι : Type} (env : Environment ι) : Prop :=
  ∀ time fd addr len, len < sizeofSockAddrIn →
    (env.connect time).connect fd addr len = .failed .einval

/-- No connection is under way or established. -/
def Status.Idle (status : Status) : Prop := status ≠ .connecting ∧ status ≠ .connected

namespace Status

variable {before after : Status}

theorem Moves.refl (status : Status) : status.Moves status := .inl rfl

/-- Other threads establish nothing. -/
theorem Moves.idle (moves : before.Moves after) (idle : before.Idle) : after.Idle := by
  rcases moves with rfl | rfl | ⟨-, rfl⟩
  · exact idle
  · exact ⟨by decide, by decide⟩
  · exact ⟨by decide, by decide⟩

/-- A socket that was given up stays given up. -/
theorem Moves.disconnected (moves : Moves .disconnected after) : after = .disconnected := by
  rcases moves with same | gone | ⟨fresh, -⟩
  · exact same
  · exact gone
  · cases fresh

end Status

namespace Socket

variable {σ ι : Type} {cls : SocketClass σ ι} {before after : Socket σ}

/-- `RealWrite` gives up an idle socket. -/
theorem status_realWrite_of_idle {soError : SoError} {input : ι} (idle : before.status.Idle)
    (execution : realWrite cls soError input before = some after) :
    after.status = .disconnected := by
  rw [realWrite] at execution
  split at execution
  · cases execution
    rfl
  · cases execution
    rfl
  · cases execution
    rfl
  · rename_i connecting
    exact absurd connecting idle.1
  · rename_i connected
    exact absurd connected idle.2

/-- `RealRead` gives up an idle socket. -/
theorem status_realRead_of_idle {reads : List (ReadResult × ι)} (idle : before.status.Idle)
    (execution : realRead cls reads before = some after) : after.status = .disconnected := by
  rw [realRead] at execution
  split at execution
  · cases execution
    rfl
  · cases execution
    rfl
  · cases execution
    rfl
  · rename_i connecting
    exact absurd connecting idle.1
  · rename_i connected
    exact absurd connected idle.2

/-- `RealDisconnect` itself assigns no status. -/
theorem moves_of_realDisconnect (execution : realDisconnect cls before = some after) :
    before.status.Moves after.status := by
  rw [realDisconnect, Option.bind_eq_bind, Option.bind_eq_some_iff] at execution
  obtain ⟨told, reported, execution⟩ := execution
  have moves : before.status.Moves told.status :=
    (cls.onDisconnect_within before told reported).moves
  split at execution
  · cases execution
    exact moves
  · cases execution
    exact moves

end Socket

namespace Engine

variable {σ ι τ : Type} {cls : SocketClass σ ι} {mux : IoMultiplexing τ} {env : Environment ι}
  {before after : Engine σ τ}

/-- No connection of any socket is under way or established. -/
def AllIdle (engine : Engine σ τ) : Prop := ∀ socket, (engine.heap socket).status.Idle

/-- Idle sockets only moved as other threads move them. -/
def Stalls (before after : Engine σ τ) : Prop :=
  ∀ socket, (before.heap socket).status.Idle →
    (before.heap socket).status.Moves (after.heap socket).status

namespace Stalls

theorem of_heap (heap_eq : after.heap = before.heap) : Stalls before after := by
  intro socket _
  rw [heap_eq]
  exact .refl _

theorem of_steps (steps : ∀ socket,
    Socket.SubSteps Socket.quiet (before.heap socket) (after.heap socket)) :
    Stalls before after := fun socket _ => (steps socket).moves

theorem trans {middle : Engine σ τ} (first : Stalls before middle)
    (second : Stalls middle after) : Stalls before after := by
  intro socket idle
  have moved := first socket idle
  exact moved.trans (second socket (moved.idle idle))

theorem allIdle (stalls : Stalls before after) (idle : AllIdle before) : AllIdle after :=
  fun socket => (stalls socket (idle socket)).idle (idle socket)

/-- A socket that moves as other threads move it. -/
theorem store {socket : SocketPtr} {next : Socket σ}
    (moves : (before.heap socket).status.Moves next.status) :
    Stalls before (before.store socket next) := by
  intro other _
  by_cases same : other = socket
  · subst same
    rw [heap_store_self]
    exact moves
  · rw [heap_store_of_ne same]
    exact .refl _

/-- A call into a socket that moves it as other threads do. -/
theorem callSocket {call : RealCall} {method : Socket σ → Option (Socket σ)} {socket : SocketPtr}
    (moves : ∀ next, method (before.heap socket) = some next →
      (before.heap socket).status.Idle → (before.heap socket).status.Moves next.status)
    (execution : callSocket cls env call method socket before = some after) :
    Stalls before after := by
  obtain ⟨⟨next, called, steps⟩, others⟩ := callSocket_object execution
  intro other idle
  by_cases same : other = socket
  · subst same
    exact (moves next called idle).trans steps.moves
  · exact (others other same).moves

/-- As every attempt fails, the worker gives sockets up and does nothing else to them. -/
theorem pervades (cls : SocketClass σ ι) (mux : IoMultiplexing τ) (rejects : env.RejectsShort) :
    Pervades cls mux env (Stalls : Engine σ τ → Engine σ τ → Prop) where
  refl _ := of_heap rfl
  trans _ _ _ := trans
  interrupt _ _ execution := of_steps (interrupt_object execution)
  interruptLocked _ _ execution := of_steps (interruptLocked_object execution)
  deleteFd _ _ := of_heap rfl
  dispatch _ _ := of_heap rfl
  fdCheck _ _ := of_heap rfl
  connect _ before _ _ execution := by
    refine callSocket ?_ execution
    rintro next ⟨⟩ -
    exact .inr (.inl (status_realConnect (rejects before.time) _))
  disconnect _ _ _ _ := callSocket fun _ told _ => Socket.moves_of_realDisconnect told
  write _ _ _ _ := callSocket fun _ written idle =>
    .inr (.inl (Socket.status_realWrite_of_idle idle written))
  read _ _ _ _ := callSocket fun _ read idle =>
    .inr (.inl (Socket.status_realRead_of_idle idle read))
  sleep _ := of_heap rfl
  lock _ := of_heap rfl
  unlock _ := of_heap rfl
  erase _ _ := of_heap rfl
  drain _ _ := of_heap rfl
  swap _ := of_heap rfl
  close _ _ := store (.inr (.inl rfl))

theorem of_run {calls : List ThreadCall} (rejects : env.RejectsShort)
    (execution : PartialRun.run (ThreadCall.perform cls mux env) calls before = some after) :
    Stalls before after :=
  (pervades cls mux rejects).run
    (fun thread action _ _ acted =>
      of_steps fun socket => (allows_object cls socket).act thread action _ _ acted)
    (fun _ _ => of_heap rfl) execution

/-- What is given up stays given up. -/
theorem disconnected (stalls : Stalls before after) {socket : SocketPtr}
    (gone : (before.heap socket).status = .disconnected) :
    (after.heap socket).status = .disconnected := by
  have idle : (before.heap socket).status.Idle := by
    rw [gone]
    exact ⟨by decide, by decide⟩
  have moves := stalls socket idle
  rw [gone] at moves
  exact moves.disconnected

end Stalls

theorem allIdle_construct (io : τ) (subs : SocketPtr → σ) :
    AllIdle (construct io fun socket => Socket.construct (subs socket)) :=
  fun _ => ⟨fun connecting => (by cases connecting), fun connected => (by cases connected)⟩

/-! ## The fate of an attempt -/

/-- The statuses that a round finds follow those before it. -/
theorem observed_moves {seen : List (Status × Nat × SocketPtr)}
    (observing : observed cls mux env before = some seen) :
    ∀ sight ∈ seen, (before.heap sight.2.2).status.Moves sight.1 := by
  simp only [observed, Option.bind_eq_bind, Option.bind_eq_some_iff] at observing
  obtain ⟨awake, woken, ⟨sights, scanned⟩, saw, finished⟩ := observing
  cases finished
  intro sight mem
  exact (wake_object woken sight.2.2).moves.trans ((sights_of_observe saw).status sight mem).1

/-- The loop over the sockets that start to connect gives each of them up. -/
theorem startConnects_gives_up (mux : IoMultiplexing τ) (rejects : env.RejectsShort)
    {entries : List (Nat × SocketPtr)}
    (execution : startConnects cls env entries before = some after) :
    ∀ entry ∈ entries, (after.heap entry.2).status = .disconnected := by
  induction entries generalizing before with
  | nil => exact fun _ mem => absurd mem List.not_mem_nil
  | cons entry entries ih =>
      simp only [startConnects, Option.bind_eq_bind, Option.bind_eq_some_iff] at execution
      obtain ⟨first, interrupted, second, connected, rest⟩ := execution
      refine List.forall_mem_cons.mpr ⟨?_, ih rest⟩
      obtain ⟨⟨next, called, steps⟩, -⟩ := callSocket_object connected
      obtain rfl := Option.some.inj called
      have moves := steps.moves
      rw [status_realConnect (rejects first.time)] at moves
      have later : Stalls second after :=
        (Stalls.pervades cls mux rejects).startConnects (fun _ _ => trivial) rest
      exact later.disconnected moves.disconnected

/-- A socket that a round finds starting to connect is given up, and stays in `sockets_`. -/
theorem given_up_of_round {seen : List (Status × Nat × SocketPtr)} {found : Scan} {ret : Int}
    {awake scanned closed started : Engine σ τ} {entry : Nat × SocketPtr}
    (rejects : env.RejectsShort)
    (round : Round cls mux env seen found ret before awake scanned closed started after)
    (starting : (.startConnect, entry) ∈ seen) :
    (after.heap entry.2).status = .disconnected ∧ entry ∈ after.sockets.entries := by
  have listed : entry ∈ found.startConnect.entries := by
    rw [round.startConnect]
    exact mem_withStatus.mpr ⟨_, starting, rfl⟩
  have serving : Stalls started after := (Stalls.pervades cls mux rejects).dispatchReady
    (fun _ _ => ⟨trivial, trivial⟩) round.serving
  refine ⟨serving.disconnected (startConnects_gives_up mux rejects round.starting entry listed), ?_⟩
  obtain ⟨fresh, entries_eq, -⟩ := (round.progress.1.trans round.progress.2).entries
  rw [entries_eq]
  exact List.mem_append_left _ (round.books.sifted.startConnect entry listed).1

/-- A round disconnects what it finds disconnected, and takes it out of `sockets_`. -/
theorem removed_of_round {seen : List (Status × Nat × SocketPtr)} {found : Scan} {ret : Int}
    {awake scanned closed started : Engine σ τ} {entry : Nat × SocketPtr}
    (round : Round cls mux env seen found ret before awake scanned closed started after)
    (gone : (.disconnected, entry) ∈ seen) :
    Shown (.called .disconnect entry.2) before after ∧ entry ∉ after.sockets.entries := by
  have listed : entry ∈ found.disconnect.entries := by
    rw [round.disconnect]
    exact mem_withStatus.mpr ⟨_, gone, rfl⟩
  have waking := (Progress.of_grown (Grown.wake round.woken)).trace
  have locked := (Progress.of_grown (Grown.lock .worker awake)).trace
  have unlocked := (Progress.of_grown (Grown.unlock .worker scanned)).trace
  rw [← round.books.trace] at locked
  constructor
  · have shown := closeInvalid_shows round.closing entry listed
    exact (shown.later ((waking.trans locked).trans unlocked)).earlier round.progress.2.trace
  · obtain ⟨fresh, entries_eq, new⟩ := (round.progress.1.trans round.progress.2).entries
    rw [entries_eq, List.mem_append]
    rintro (still | added)
    · exact round.sights.removed entry gone still
    · -- what entered meanwhile has a greater number
      have sighted := List.mem_map_of_mem (f := Prod.snd) gone
      rw [round.sights.entries] at sighted
      have bounded := awake.keys_le entry sighted
      have beyond : scanned.fd < entry.1 := new entry added
      rw [round.books.fd] at beyond
      exact absurd bounded (Nat.not_le.mpr beyond)

/-- With a kernel that rejects short addresses, whatever the threads, the callbacks and the
multiplexer do, no socket is ever connecting or connected in a reachable state.  What a round finds
starting to connect is given up when the round ends, and the round after that disconnects it and
takes it out of `sockets_`. -/
theorem attempts_fail (cls : SocketClass σ ι) (mux : IoMultiplexing τ) (env : Environment ι)
    (rejects : env.RejectsShort) (io : τ) (subs : SocketPtr → σ) (calls : List ThreadCall)
    (engine : Engine σ τ)
    (execution : PartialRun.run (ThreadCall.perform cls mux env) calls
      (construct io fun socket => Socket.construct (subs socket)) = some engine) :
    (∀ socket, (engine.heap socket).status ≠ .connecting ∧
      (engine.heap socket).status ≠ .connected) ∧
    ∀ seen ret middle, observed cls mux env engine = some seen →
      readThread cls mux env engine = some (ret, middle) →
      ∀ entry, (.startConnect, entry) ∈ seen →
        (middle.heap entry.2).status = .disconnected ∧
        ∀ ret' after, readThread cls mux env middle = some (ret', after) →
          Shown (.called .disconnect entry.2) middle after ∧ entry ∉ after.sockets.entries := by
  have stalls := Stalls.of_run rejects execution
  refine ⟨stalls.allIdle (allIdle_construct io subs), ?_⟩
  intro seen ret middle observing round entry starting
  rcases readThread_cases round with ⟨-, -, -, nothing, -⟩ |
    ⟨seen', found, awake, scanned, closed, started, round⟩
  · cases observing.symm.trans nothing
    exact absurd starting List.not_mem_nil
  obtain rfl := Option.some.inj (observing.symm.trans round.observed)
  obtain ⟨gone, stays⟩ := given_up_of_round rejects round starting
  refine ⟨gone, ?_⟩
  intro ret' after next
  rcases readThread_cases next with ⟨awake', woken, empty, -, -⟩ |
    ⟨seen', found', awake', scanned', closed', started', round'⟩
  · obtain ⟨events, -, -, entries_eq, -⟩ := (Grown.wake woken).shown
    rw [empty] at entries_eq
    exact absurd (entries_eq ▸ List.mem_append_left _ stays) List.not_mem_nil
  · obtain ⟨events, -, -, entries_eq, -⟩ := (Grown.wake round'.woken).shown
    have polled : entry ∈ awake'.sockets.entries := by
      rw [entries_eq]
      exact List.mem_append_left _ stays
    rw [← round'.sights.entries] at polled
    obtain ⟨⟨status, entry⟩, sighted, rfl⟩ := List.mem_map.mp polled
    have moves := round'.status _ sighted
    rw [gone] at moves
    obtain rfl := moves.disconnected
    exact removed_of_round round' sighted

/-- Another thread adds a socket and starts its connection, and the kernel is strict. -/
def addAndReject : Environment WriteResult :=
  { addAndConnect with connect := fun _ => strictKernel }

theorem rejectsShort_addAndReject : addAndReject.RejectsShort :=
  fun _ _ _ _ short => if_pos short

/-- A round finds the socket that starts to connect, and the next one disconnects it. -/
theorem attempts_fail_addAndReject :
    ∃ engine middle after seen,
      PartialRun.run
          (ThreadCall.perform (Transmission.socketClass SocketHandler.sink) idleMux addAndReject) []
          (construct () fun _ => Socket.construct (Transmission.construct ()).sub) =
        some engine ∧
      observed (Transmission.socketClass SocketHandler.sink) idleMux addAndReject engine =
        some seen ∧ (.startConnect, 1, 3) ∈ seen ∧
      readThread (Transmission.socketClass SocketHandler.sink) idleMux addAndReject engine =
        some (0, middle) ∧ (middle.heap 3).status = .disconnected ∧
      readThread (Transmission.socketClass SocketHandler.sink) idleMux addAndReject middle =
        some (0, after) ∧ Shown (.called .disconnect 3) middle after ∧
      (1, 3) ∉ after.sockets.entries := by
  obtain ⟨-, fate⟩ := attempts_fail (Transmission.socketClass SocketHandler.sink) idleMux
    addAndReject rejectsShort_addAndReject () (fun _ => (Transmission.construct ()).sub) [] _ rfl
  obtain ⟨gone, later⟩ := fate _ 0 _ rfl rfl (1, 3) (List.mem_cons_self ..)
  exact ⟨_, _, _, _, rfl, rfl, List.mem_cons_self .., rfl, gone, rfl, later 0 _ rfl⟩

/-! ## Descriptors -/

/-- No round finds a socket connecting. -/
theorem neverConnecting_of_rejectsShort (cls : SocketClass σ ι) (mux : IoMultiplexing τ)
    (rejects : env.RejectsShort) (socket : SocketPtr) (count : Nat) (engine : Engine σ τ)
    (idle : AllIdle engine) :
    NeverConnecting cls mux env socket count engine := by
  induction count generalizing engine with
  | zero => exact trivial
  | succ count ih =>
      refine ⟨?_, fun _ next round _ => ?_⟩
      · intro seen observing entry found
        obtain ⟨status, mem, connecting⟩ := mem_withStatus.mp found
        obtain rfl : status = .connecting := of_decide_eq_true connecting
        have moves : (engine.heap entry.2).status.Moves .connecting :=
          observed_moves observing _ mem
        exact absurd rfl (moves.idle (idle entry.2)).1
      · exact ih next (((Stalls.pervades cls mux rejects).readThread round).allIdle idle)

/-- With a kernel that rejects short addresses, whatever happens meanwhile, a fresh socket that
enters an engine at most once has closed every descriptor it opened exactly once when the worker
has ended, and never owned two. -/
theorem descriptors_conserved_of_rejectsShort (cls : SocketClass σ ι) (mux : IoMultiplexing τ)
    (env : Environment ι) (rejects : env.RejectsShort)
    (nonzero : ∀ time kind, (env.connect time).socket kind ≠ 0) (io : τ) (subs : SocketPtr → σ)
    (count : Nat) (final : Engine σ τ)
    (execution : thread cls mux env count
      (construct io fun socket => Socket.construct (subs socket)) = some final)
    (socket : SocketPtr) (once : (adds final.trace).count socket ≤ 1) :
    Conserved (final.heap socket).log := by
  simp only [thread, Option.bind_eq_bind, Option.bind_eq_some_iff] at execution
  obtain ⟨served, looped, ended⟩ := execution
  have start : Life socket (construct io fun socket => Socket.construct (subs socket)) :=
    ⟨fun _ => .inl ⟨rfl, rfl⟩, fun gone => absurd gone List.not_mem_nil⟩
  have accounted := Accounted.construct socket io fun socket => Socket.construct (subs socket)
  have never := neverConnecting_of_rejectsShort cls mux rejects socket count _
    (allIdle_construct io subs)
  have once_served := (count_adds_le (afterThread_trace mux ended)).trans once
  have life := start.rounds accounted nonzero never once_served looped
  exact Socket.conserved_of_shut (life.afterThread mux (accounted.rounds looped) once ended)

/-- A socket is given up in the first round and closed in the second. -/
theorem descriptors_conserved_addAndReject :
    ∃ final, thread (Transmission.socketClass SocketHandler.sink) idleMux addAndReject 2
        (construct () fun _ => Socket.construct (Transmission.construct ()).sub) = some final ∧
      (final.heap 3).descriptorLog = [.opened 5, .closed 5] ∧ Conserved (final.heap 3).log := by
  refine ⟨_, rfl, rfl, ?_⟩
  exact descriptors_conserved_of_rejectsShort (Transmission.socketClass SocketHandler.sink) idleMux
    addAndReject rejectsShort_addAndReject (fun _ _ => (by decide : (5 : Int) ≠ 0)) () _ 2 _ rfl 3
    (Nat.le_refl 1)

end Engine
end NetworkBase
