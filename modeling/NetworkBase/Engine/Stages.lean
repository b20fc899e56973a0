import NetworkBase.Engine.LockDiscipline
import NetworkBase.Engine.Observation

/-!
# One round of the engine, by the stages of the sockets

When nobody disturbs a round and the kernel obliges, every socket should move on by one stage.  The
scan sorts the sockets by their statuses, but it hands the connecting ones to `RealConnect` again,
and `RealConnect` itself passes a wrong length to `connect`, so no socket ever gets beyond
`START_CONNECT`.
-/

namespace NetworkBase

/-- Nobody calls a socket but the engine: other threads and callbacks only use `Add` and `Query`. -/
def Environment.Undisturbed {ι : Type} (env : Environment ι) : Prop :=
  ∀ time, ∀ action ∈ env.others time ++ env.callbacks time, action.lockFree = false

namespace Engine

variable {σ ι τ : Type} {cls : SocketClass σ ι} {mux : IoMultiplexing τ} {env : Environment ι}

/-- The kernel calls of a round succeed: `socket` and `fcntl` do, `connect` does or is in progress
when it gets a whole address, every descriptor is found writable and its connection established. -/
structure KernelSucceeds (mux : IoMultiplexing τ) (env : Environment ι) : Prop where
  socket : ∀ time kind, 0 < (env.connect time).socket kind
  fcntl : ∀ time fd, SocketAssistant.makeNonBlock (env.connect time).fcntl fd = 0
  connect : ∀ time fd addr, (env.connect time).connect fd addr sizeofSockAddrIn = .ok ∨
    ∃ errno, (env.connect time).connect fd addr sizeofSockAddrIn = .failed errno ∧
      SocketAssistant.errorWouldBlock errno = true
  short : ∀ time fd addr len, len < sizeofSockAddrIn →
    (env.connect time).connect fd addr len = .failed .einval
  addFd : ∀ fd read write state, (mux.addFd fd read write state).1 = 0
  dispatch : ∀ endless timeOutMs state, 0 < (mux.dispatch endless timeOutMs state).1
  writable : ∀ fd state, (mux.fdCheck fd state).1.1 = 0 ∧ (mux.fdCheck fd state).1.2.2 = true
  established : ∀ time, env.soError time = .clear

/-- What one round should do to each socket that it finds when it has taken the mutex. -/
def ServedByStage (awake after : Engine σ τ) : Prop :=
  ∃ events, after.trace = awake.trace ++ events ∧
    ∀ entry ∈ awake.sockets.entries,
      match (awake.heap entry.2).status with
      | .init => after.heap entry.2 = awake.heap entry.2
      | .startConnect => (after.heap entry.2).status = .connecting
      | .connecting =>
          (after.heap entry.2).fd = (awake.heap entry.2).fd ∧
            .called .connect entry.2 ∉ events ∧
            (after.heap entry.2).status = .connected ∧
            (after.heap entry.2).onConnectCount = (awake.heap entry.2).onConnectCount + 1
      | .connected => True
      | .disconnected => entry ∉ after.sockets.entries ∧ .called .disconnect entry.2 ∈ events

/-! ## The socket objects in an undisturbed round -/

theorem acts_heap {thread : ThreadId} {actions : List UserAction} {before after : Engine σ τ}
    (undisturbed : ∀ action ∈ actions, action.lockFree = false)
    (execution : acts cls thread actions before = some after) : after.heap = before.heap := by
  refine PartialRun.invariant_of_mem (fun engine => engine.heap = before.heap) ?_ execution rfl
  intro action mem first next same step
  cases action with
  | add socket wake =>
      cases step
      exact same
  | query fd =>
      cases step
      rw [← same, query]
      split
      · rfl
      · rfl
  | call socket call => exact absurd (undisturbed _ mem) Bool.noConfusion

theorem interrupt_heap {before after : Engine σ τ} (undisturbed : env.Undisturbed)
    (execution : interrupt cls env before = some after) : after.heap = before.heap := by
  rw [interrupt, Option.map_eq_some_iff] at execution
  obtain ⟨middle, acted, rfl⟩ := execution
  rw [heap_tick]
  exact acts_heap (fun action mem => undisturbed before.time action (List.mem_append_left _ mem))
    acted

theorem interruptLocked_heap {before after : Engine σ τ} (undisturbed : env.Undisturbed)
    (execution : interruptLocked cls env before = some after) : after.heap = before.heap := by
  rw [interruptLocked, Option.map_eq_some_iff] at execution
  obtain ⟨middle, acted, rfl⟩ := execution
  rw [heap_tick]
  exact acts_heap (fun action mem => undisturbed before.time action
    (List.mem_append_left _ (List.mem_of_mem_filter mem))) acted

/-- A call into a socket changes this socket only. -/
theorem callSocket_heap {call : RealCall} {method : Socket σ → Option (Socket σ)}
    {socket : SocketPtr} {before after : Engine σ τ} (undisturbed : env.Undisturbed)
    (execution : callSocket cls env call method socket before = some after) :
    method (before.heap socket) = some (after.heap socket) ∧
      ∀ other, other ≠ socket → after.heap other = before.heap other := by
  simp only [callSocket, Option.bind_eq_bind, Option.bind_eq_some_iff] at execution
  obtain ⟨next, called, middle, acted, finished⟩ := execution
  cases finished
  have heap_eq : middle.heap = ((before.record (.called call socket)).store socket next).heap :=
    acts_heap (fun action mem => undisturbed before.time action (List.mem_append_right _ mem)) acted
  constructor
  · rw [heap_tick, heap_eq, heap_store_self]
    exact called
  · intro other differs
    rw [heap_tick, heap_eq, heap_store_of_ne differs, heap_record]

/-- In an undisturbed round the test that agrees tells the status. -/
theorem firstMatch_heap {socket : SocketPtr} {tests : List Status} {before after : Engine σ τ}
    {found : Option Status} (undisturbed : env.Undisturbed)
    (execution : firstMatch cls env socket tests before = some (found, after)) :
    after.heap = before.heap ∧
      ∀ status, found = some status → (before.heap socket).status = status := by
  induction tests generalizing before with
  | nil =>
      cases execution
      exact ⟨rfl, fun _ matched => absurd matched (by simp)⟩
  | cons test tests ih =>
      simp only [firstMatch, Option.bind_eq_bind, Option.bind_eq_some_iff] at execution
      obtain ⟨middle, interrupted, execution⟩ := execution
      have same := interruptLocked_heap undisturbed interrupted
      split at execution
      · rename_i agrees
        cases execution
        refine ⟨same, ?_⟩
        intro status matched
        rw [← same, agrees]
        exact Option.some.inj matched
      · obtain ⟨heap_eq, told⟩ := ih execution
        rw [same] at heap_eq told
        exact ⟨heap_eq, told⟩

/-- In an undisturbed round every socket is found with the status that it has. -/
theorem observe_heap {entries : List (Nat × SocketPtr)} {seen : List (Status × Nat × SocketPtr)}
    {before after : Engine σ τ} (undisturbed : env.Undisturbed)
    (execution : observe cls env entries before = some (seen, after)) :
    after.heap = before.heap ∧
      seen = entries.map fun entry => ((before.heap entry.2).status, entry) := by
  induction entries generalizing before seen with
  | nil =>
      cases execution
      exact ⟨rfl, rfl⟩
  | cons entry entries ih =>
      simp only [observe, Option.bind_eq_bind, Option.bind_eq_some_iff] at execution
      obtain ⟨⟨found, middle⟩, matching, execution⟩ := execution
      obtain ⟨same, told⟩ := firstMatch_heap undisturbed matching
      cases found with
      | none => cases execution
      | some status =>
          simp only [Option.bind_eq_some_iff] at execution
          obtain ⟨⟨later, final⟩, rest, finished⟩ := execution
          cases finished
          have erased : (if status = .disconnected then middle.eraseFd entry.1 else middle).heap =
              before.heap := by
            rw [← same]
            split
            · rfl
            · rfl
          obtain ⟨heap_eq, later_eq⟩ := ih rest
          rw [erased] at heap_eq later_eq
          refine ⟨heap_eq, ?_⟩
          rw [later_eq, List.map_cons, told status rfl]

/-- The scan takes the socket for one that starts to connect. -/
def Starting (engine : Engine σ τ) (entry : Nat × SocketPtr) : Prop :=
  (engine.heap entry.2).status = .startConnect ∨ (engine.heap entry.2).status = .connecting

instance (engine : Engine σ τ) (entry : Nat × SocketPtr) : Decidable (engine.Starting entry) :=
  inferInstanceAs (Decidable (_ ∨ _))

/-- The status of a socket that the scan finds. -/
def HasStatus (engine : Engine σ τ) (status : Status) (entry : Nat × SocketPtr) : Prop :=
  (engine.heap entry.2).status = status

instance (engine : Engine σ τ) (status : Status) (entry : Nat × SocketPtr) :
    Decidable (engine.HasStatus status entry) :=
  inferInstanceAs (Decidable (_ = _))

/-- Where an undisturbed scan puts the sockets it has ahead. -/
structure Sorts (ahead : List (Nat × SocketPtr)) (found : Scan) (before : Engine σ τ)
    (final : Scan) (after : Engine σ τ) : Prop where
  heap : after.heap = before.heap
  startConnect : final.startConnect.entries =
    found.startConnect.entries ++ ahead.filter before.Starting
  connected : final.connected.entries =
    found.connected.entries ++ ahead.filter (before.HasStatus .connected)
  disconnect : final.disconnect.entries =
    found.disconnect.entries ++ ahead.filter (before.HasStatus .disconnected)
  removed : ∀ entry ∈ after.sockets.entries, entry ∈ before.sockets.entries ∧
    (entry ∈ ahead → ¬before.HasStatus .disconnected entry)

theorem scan_sorts {ahead : List (Nat × SocketPtr)} {found final : Scan} {before after : Engine σ τ}
    {matched : Bool} (undisturbed : env.Undisturbed)
    (sorted : ahead.Pairwise fun first second => first.1 < second.1)
    (sifted : Sifted ahead found before)
    (execution : scan cls env ahead found before = some (matched, final, after)) :
    Sorts ahead found before final after := by
  obtain ⟨seen, saw, starts, connects, disconnects⟩ := observe_of_scan sorted sifted execution
  obtain ⟨heap_eq, seen_eq⟩ := observe_heap undisturbed saw
  have sights := sights_of_observe saw
  have with_status : ∀ test : Status → Bool, withStatus test seen =
      ahead.filter fun entry => test (before.heap entry.2).status := by
    intro test
    rw [withStatus, seen_eq, List.filter_map, List.map_map]
    exact List.map_id _
  refine ⟨heap_eq, ?_, ?_, ?_, ?_⟩
  · rw [starts, with_status]
    rfl
  · rw [connects, with_status]
    rfl
  · rw [disconnects, with_status]
    rfl
  · intro entry mem
    refine ⟨sights.subset mem, fun listed gone => sights.removed entry ?_ mem⟩
    rw [seen_eq]
    exact List.mem_map.mpr ⟨entry, listed, congrArg (·, entry) gone⟩

/-! ## The loops -/

/-- Calls on other sockets leave a socket alone. -/
theorem follows_heap (cls : SocketClass σ ι) (mux : IoMultiplexing τ)
    (undisturbed : env.Undisturbed) (socket : SocketPtr) :
    Follows cls mux env (fun _ other => other ≠ socket)
      fun (before after : Engine σ τ) => after.heap socket = before.heap socket where
  refl _ := rfl
  trans _ _ _ first second := second.trans first
  interrupt _ _ execution := congrFun (interrupt_heap undisturbed execution) socket
  deleteFd _ _ := rfl
  addFd _ _ := rfl
  dispatch _ _ := rfl
  fdCheck _ _ := rfl
  connect _ _ _ differs execution := (callSocket_heap undisturbed execution).2 socket differs.symm
  disconnect _ _ _ differs execution :=
    (callSocket_heap undisturbed execution).2 socket differs.symm
  write _ _ _ differs execution := (callSocket_heap undisturbed execution).2 socket differs.symm
  read _ _ _ differs execution := (callSocket_heap undisturbed execution).2 socket differs.symm

/-- `connect` rejects the length it gets, so `RealConnect` gives up the socket. -/
theorem status_realConnect {kernel : ConnectKernel}
    (short : ∀ fd addr len, len < sizeofSockAddrIn →
      kernel.connect fd addr len = .failed .einval) (socket : Socket σ) :
    (socket.realConnect kernel).status = .disconnected := by
  have fails : ¬socket.AttemptSucceeds kernel := by
    rintro ⟨-, -, answer⟩
    have rejected : (socket.openSocket kernel).connectAnswer kernel = .failed .einval :=
      short _ _ _ (by decide)
    rw [rejected] at answer
    rcases answer with ok | ⟨errno, failed, wouldBlock⟩
    · exact absurd ok (by simp)
    · obtain rfl := SysResult.failed.inj failed
      exact absurd wouldBlock (by decide)
  rw [Socket.realConnect_of_fails fails, Socket.status_assign]

/-- A socket that was given up stays so while the engine only starts connections. -/
theorem follows_disconnected (cls : SocketClass σ ι) (mux : IoMultiplexing τ)
    (undisturbed : env.Undisturbed) (kernel : KernelSucceeds mux env) (socket : SocketPtr) :
    Follows cls mux env (fun call _ => call = .connect)
      fun (before after : Engine σ τ) => (before.heap socket).status = .disconnected →
        (after.heap socket).status = .disconnected where
  refl _ := id
  trans _ _ _ first second := second ∘ first
  interrupt _ _ execution gone := by
    rw [interrupt_heap undisturbed execution]
    exact gone
  deleteFd _ _ := id
  addFd _ _ := id
  dispatch _ _ := id
  fdCheck _ _ := id
  connect other before after _ execution gone := by
    obtain ⟨called, others⟩ := callSocket_heap undisturbed execution
    by_cases same : socket = other
    · subst same
      rw [← Option.some.inj called]
      exact status_realConnect (kernel.short before.time) _
    · rw [others socket same]
      exact gone
  disconnect _ _ _ listed := absurd listed (by decide)
  write _ _ _ listed := absurd listed (by decide)
  read _ _ _ listed := absurd listed (by decide)

/-- The event happened between two states. -/
def Shown (event : EngineEvent) (before after : Engine σ τ) : Prop :=
  ∃ events, after.trace = before.trace ++ events ∧ event ∈ events

namespace Shown

variable {event : EngineEvent} {before middle after : Engine σ τ}

theorem of_call {call : RealCall} {method : Socket σ → Option (Socket σ)} {socket : SocketPtr}
    (execution : callSocket cls env call method socket before = some after) :
    Shown (.called call socket) before after := by
  obtain ⟨events, trace_eq, -⟩ := (grown_of_callSocket execution).shown
  exact ⟨.called call socket :: events, by simp [trace_eq, record], List.mem_cons_self ..⟩

theorem earlier (shown : Shown event before middle) (later : middle.trace <+: after.trace) :
    Shown event before after := by
  obtain ⟨events, trace_eq, mem⟩ := shown
  obtain ⟨more, more_eq⟩ := later
  refine ⟨events ++ more, ?_, List.mem_append_left _ mem⟩
  rw [← more_eq, trace_eq, List.append_assoc]

theorem later (first : before.trace <+: middle.trace) (shown : Shown event middle after) :
    Shown event before after := by
  obtain ⟨events, trace_eq, mem⟩ := shown
  obtain ⟨more, more_eq⟩ := first
  refine ⟨more ++ events, ?_, List.mem_append_right _ mem⟩
  rw [trace_eq, ← more_eq, List.append_assoc]

end Shown

theorem closeInvalid_shows {entries : List (Nat × SocketPtr)} {before after : Engine σ τ}
    (execution : closeInvalid cls mux env entries before = some after) :
    ∀ entry ∈ entries, Shown (.called .disconnect entry.2) before after := by
  induction entries generalizing before with
  | nil => simp
  | cons entry entries ih =>
      simp only [closeInvalid, Option.bind_eq_bind, Option.bind_eq_some_iff] at execution
      obtain ⟨first, interrupted, second, disconnected, rest⟩ := execution
      have progress := Progress.follows cls mux env
      have prepared : Progress before _ := progress.trans _ _ _
        (progress.interrupt before first interrupted)
        (progress.deleteFd (if (first.heap entry.2).fd < 0 then 1 else 0) first)
      have called : Progress before second :=
        prepared.trans (progress.disconnect _ _ _ trivial disconnected)
      have rest_progress := progress.closeInvalid (fun _ _ => trivial) rest
      refine List.forall_mem_cons.mpr ⟨?_, ?_⟩
      · exact ((Shown.of_call disconnected).later prepared.trace).earlier rest_progress.trace
      · intro other mem
        exact (ih rest other mem).later called.trace

/-- A socket that starts to connect is called, and given up. -/
theorem startConnects_spec {entries : List (Nat × SocketPtr)} {before after : Engine σ τ}
    (undisturbed : env.Undisturbed) (kernel : KernelSucceeds mux env)
    (execution : startConnects cls env entries before = some after) :
    ∀ entry ∈ entries, Shown (.called .connect entry.2) before after ∧
      (after.heap entry.2).status = .disconnected := by
  induction entries generalizing before with
  | nil => simp
  | cons entry entries ih =>
      simp only [startConnects, Option.bind_eq_bind, Option.bind_eq_some_iff] at execution
      obtain ⟨first, interrupted, second, connected, rest⟩ := execution
      have progress := Progress.follows cls mux env
      have prepared : Progress before first := progress.interrupt before first interrupted
      have called : Progress before second :=
        prepared.trans (progress.connect _ _ _ trivial connected)
      have rest_progress := progress.startConnects (fun _ _ => trivial) rest
      refine List.forall_mem_cons.mpr ⟨⟨?_, ?_⟩, ?_⟩
      · exact ((Shown.of_call connected).later prepared.trace).earlier rest_progress.trace
      · refine (follows_disconnected cls mux undisturbed kernel entry.2).startConnects
          (fun _ _ => rfl) rest ?_
        rw [← Option.some.inj (callSocket_heap undisturbed connected).1]
        exact status_realConnect (kernel.short first.time) _
      · intro other mem
        obtain ⟨shown, gone⟩ := ih rest other mem
        exact ⟨shown.later called.trace, gone⟩

/-! ## A whole round -/

/-- An undisturbed round that found sockets: what the scan sorted, and the loops after it. -/
theorem exists_round {awake after : Engine σ τ} {ret : Int} (undisturbed : env.Undisturbed)
    (round : scanAndServe cls mux env awake = some (ret, after)) :
    ∃ found scanned closed started,
      Sorts awake.sockets.entries ⟨.empty, .empty, .empty, .empty⟩ awake found scanned ∧
      awake.trace <+: scanned.trace ∧ scanned.fd = awake.fd ∧
      closeInvalid cls mux env found.disconnect.entries scanned = some closed ∧
      startConnects cls env found.startConnect.entries closed = some started ∧
      dispatchReady cls mux env found.connected.entries started = some (ret, after) := by
  simp only [scanAndServe, Option.bind_eq_bind, Option.bind_eq_some_iff] at round
  obtain ⟨⟨matched, found, middle⟩, scanned, served⟩ := round
  have sorted := (awake.lock .worker).sockets.sorted
  have start := Sifted.start (awake.lock .worker)
  obtain ⟨rfl, books⟩ := scan_spec sorted start scanned
  have sorts := scan_sorts undisturbed sorted start scanned
  simp only [if_true, serve, books.sifted.connecting, checkConnecting, Option.bind_eq_bind,
    Option.bind_eq_some_iff, Option.bind_some] at served
  obtain ⟨closed, closing, started, starting, serving⟩ := served
  refine ⟨found, middle.unlock .worker, closed, started, ?_, ?_, books.fd, closing, starting,
    serving⟩
  · exact ⟨sorts.heap, sorts.startConnect, sorts.connected, sorts.disconnect, sorts.removed⟩
  · have locked : awake.trace <+: (awake.lock .worker).trace := List.prefix_append _ _
    have unlocked : middle.trace <+: (middle.unlock .worker).trace := List.prefix_append _ _
    rw [books.trace] at unlocked
    exact locked.trans unlocked

/-- A socket that starts to connect, or was connecting, is called and given up. -/
theorem given_up {awake after : Engine σ τ} {ret : Int} (undisturbed : env.Undisturbed)
    (kernel : KernelSucceeds mux env)
    (round : scanAndServe cls mux env awake = some (ret, after)) {entry : Nat × SocketPtr}
    (mem : entry ∈ awake.sockets.entries) (starting : awake.Starting entry) :
    Shown (.called .connect entry.2) awake after ∧
      (after.heap entry.2).status = .disconnected := by
  obtain ⟨found, scanned, closed, started, sorts, shown, -, closing, connects, serving⟩ :=
    exists_round undisturbed round
  have progress := Progress.follows cls mux env
  have listed : entry ∈ found.startConnect.entries := by
    rw [sorts.startConnect]
    exact List.mem_filter.mpr ⟨mem, decide_eq_true starting⟩
  have elsewhere : ∀ other ∈ found.connected.entries, other.2 ≠ entry.2 := by
    intro other other_mem same
    rw [sorts.connected] at other_mem
    have connected : awake.HasStatus .connected other :=
      of_decide_eq_true (List.mem_filter.mp other_mem).2
    rw [HasStatus, same] at connected
    rw [Starting, connected] at starting
    exact absurd starting (by decide)
  obtain ⟨called, gone⟩ := startConnects_spec undisturbed kernel connects entry listed
  have closed_progress := progress.closeInvalid (fun _ _ => trivial) closing
  have serving_progress := progress.dispatchReady (fun _ _ => ⟨trivial, trivial⟩) serving
  have same := (follows_heap cls mux undisturbed entry.2).dispatchReady
    (fun other other_mem => ⟨elsewhere other other_mem, elsewhere other other_mem⟩) serving
  refine ⟨(called.later (shown.trans closed_progress.trace)).earlier serving_progress.trace, ?_⟩
  rw [same]
  exact gone

/-- Without a socket that starts to connect, sockets in `INIT` are left alone and disconnected ones
leave the engine. -/
theorem served_of_none_starting {awake after : Engine σ τ} {ret : Int}
    (undisturbed : env.Undisturbed) (round : scanAndServe cls mux env awake = some (ret, after))
    (none_starting : ∀ entry ∈ awake.sockets.entries, ¬awake.Starting entry) :
    ServedByStage awake after := by
  obtain ⟨found, scanned, closed, started, sorts, shown, fd_eq, closing, connects, serving⟩ :=
    exists_round undisturbed round
  have progress := Progress.follows cls mux env
  have starts : found.startConnect.entries = [] := by
    rw [sorts.startConnect, List.filter_eq_nil_iff.mpr]
    · rfl
    · intro entry mem
      simpa using none_starting entry mem
  rw [starts] at connects
  cases connects
  have closed_progress := progress.closeInvalid (fun _ _ => trivial) closing
  have serving_progress := progress.dispatchReady (fun _ _ => ⟨trivial, trivial⟩) serving
  have all : Progress scanned after := closed_progress.trans serving_progress
  obtain ⟨events, events_eq⟩ := shown.trans all.trace
  refine ⟨events, events_eq.symm, ?_⟩
  intro entry mem
  have not_starting := none_starting entry mem
  rw [Starting] at not_starting
  cases status_eq : (awake.heap entry.2).status with
  | init =>
      have uncalled : ∀ status, status ≠ .init → ∀ other, awake.HasStatus status other →
          other.2 ≠ entry.2 := by
        intro status differs other has same
        rw [HasStatus, same, status_eq] at has
        exact differs has.symm
      have keeps := follows_heap cls mux undisturbed entry.2
      have through_close := keeps.closeInvalid (fun other other_mem => by
        rw [sorts.disconnect] at other_mem
        exact uncalled .disconnected (by decide) other
          (of_decide_eq_true (List.mem_filter.mp other_mem).2)) closing
      have through_serve := keeps.dispatchReady (fun other other_mem => by
        rw [sorts.connected] at other_mem
        have differs := uncalled .connected (by decide) other
          (of_decide_eq_true (List.mem_filter.mp other_mem).2)
        exact ⟨differs, differs⟩) serving
      show after.heap entry.2 = awake.heap entry.2
      rw [through_serve, through_close, sorts.heap]
  | startConnect => exact absurd (Or.inl status_eq) not_starting
  | connecting => exact absurd (Or.inr status_eq) not_starting
  | connected => exact trivial
  | disconnected =>
      constructor
      · obtain ⟨fresh, entries_eq, new⟩ := all.entries
        rw [entries_eq, List.mem_append]
        rintro (still | fresh_mem)
        · exact (sorts.removed entry still).2 mem status_eq
        · have beyond := new entry fresh_mem
          rw [fd_eq] at beyond
          exact absurd (awake.keys_le entry mem) (Nat.not_le.mpr beyond)
      · have listed : entry ∈ found.disconnect.entries := by
          rw [sorts.disconnect]
          exact List.mem_filter.mpr ⟨mem, decide_eq_true status_eq⟩
        obtain ⟨events', events_eq', called⟩ :=
          ((closeInvalid_shows closing entry listed).later shown).earlier serving_progress.trace
        rw [← events_eq] at events_eq'
        rw [List.append_cancel_left events_eq']
        exact called

/-- When nobody disturbs it and the kernel obliges, a round serves every socket by its stage exactly
if it finds no socket that starts to connect or is connecting. -/
theorem servedByStage_iff (cls : SocketClass σ ι) (mux : IoMultiplexing τ) (env : Environment ι)
    (undisturbed : env.Undisturbed) (kernel : KernelSucceeds mux env)
    (before awake after : Engine σ τ) (ret : Int) (woken : wake cls mux env before = some awake)
    (round : readThread cls mux env before = some (ret, after)) :
    ServedByStage awake after ↔
      ∀ entry ∈ awake.sockets.entries, (awake.heap entry.2).status ≠ .startConnect ∧
        (awake.heap entry.2).status ≠ .connecting := by
  rw [readThread, woken, Option.bind_eq_bind, Option.bind_some] at round
  split at round
  · rename_i empty
    rw [List.isEmpty_iff] at empty
    have waited : Progress awake after :=
      (Progress.of_grown (Grown.unlock .worker awake)).trans
        (Progress.of_grown (Grown.waitForSockets round))
    obtain ⟨events, events_eq⟩ := waited.trace
    rw [ServedByStage, empty]
    exact iff_of_true ⟨events, events_eq.symm, by simp⟩ (by simp)
  · constructor
    · rintro ⟨events, events_eq, served⟩ entry mem
      have by_stage := served entry mem
      refine ⟨fun start => ?_, fun connecting => ?_⟩
      · obtain ⟨-, gone⟩ := given_up undisturbed kernel round mem (Or.inl start)
        rw [start] at by_stage
        have connecting : (after.heap entry.2).status = .connecting := by_stage
        rw [gone] at connecting
        exact absurd connecting (by decide)
      · obtain ⟨⟨events', events_eq', called⟩, -⟩ :=
          given_up undisturbed kernel round mem (Or.inr connecting)
        rw [connecting] at by_stage
        rw [events_eq] at events_eq'
        rw [← List.append_cancel_left events_eq'] at called
        exact absurd called by_stage.2.1
    · intro none_starting
      apply served_of_none_starting undisturbed round
      rintro entry mem (start | connecting)
      · exact (none_starting entry mem).1 start
      · exact (none_starting entry mem).2 connecting

/-- A kernel that connects at once when it gets a whole address. -/
def strictKernel : ConnectKernel where
  socket _ := 5
  fcntl := { getfl := fun _ => some 0, setfl := fun _ _ => true }
  connect _ _ len := if len < sizeofSockAddrIn then .failed .einval else .ok

/-- Nobody acts meanwhile, and the kernel obliges. -/
def strictAlone : Environment WriteResult := { alone with connect := fun _ => strictKernel }

/-- A multiplexer that finds every descriptor ready. -/
def readyMux : IoMultiplexing Unit where
  addFd _ _ _ _ := (0, ())
  deleteFd _ _ := (0, ())
  dispatch _ _ _ := (1, ())
  sleep _ _ := (0, ())
  fdCheck _ _ := ((0, true, true), ())

theorem kernelSucceeds_strictAlone : KernelSucceeds readyMux strictAlone where
  socket _ _ := (by decide : (0 : Int) < 5)
  fcntl _ _ := rfl
  connect _ _ _ := Or.inl rfl
  short _ _ _ _ short := if_pos short
  addFd _ _ _ _ := rfl
  dispatch _ _ _ := (by decide : (0 : Int) < 1)
  writable _ _ := ⟨rfl, rfl⟩
  established _ := rfl

theorem undisturbed_strictAlone : strictAlone.Undisturbed := by
  intro time action mem
  exact absurd mem List.not_mem_nil

/-- An engine with one socket, which its user has just connected. -/
def startingSocket : Engine (Transmission Unit) Unit :=
  ((construct () fun _ => ((Transmission.construct ()).setIpPort
    [49, 46, 50, 46, 51, 46, 52] 80).connect 0 0).add .other 3 (.accepts 1)).2

theorem servedByStage_iff_startingSocket :
    ∃ awake after, wake (Transmission.socketClass SocketHandler.sink) readyMux strictAlone
        startingSocket = some awake ∧
      readThread (Transmission.socketClass SocketHandler.sink) readyMux strictAlone
        startingSocket = some (0, after) ∧
      (ServedByStage awake after ↔
        ∀ entry ∈ awake.sockets.entries, (awake.heap entry.2).status ≠ .startConnect ∧
          (awake.heap entry.2).status ≠ .connecting) :=
  ⟨_, _, rfl, rfl, servedByStage_iff (Transmission.socketClass SocketHandler.sink) readyMux
    strictAlone undisturbed_strictAlone kernelSucceeds_strictAlone startingSocket _ _ 0 rfl rfl⟩

/-- The socket that should be connecting after the round is given up. -/
theorem start_connect_given_up :
    KernelSucceeds readyMux strictAlone ∧ strictAlone.Undisturbed ∧
      ∃ awake after, wake (Transmission.socketClass SocketHandler.sink) readyMux strictAlone
          startingSocket = some awake ∧
        readThread (Transmission.socketClass SocketHandler.sink) readyMux strictAlone
          startingSocket = some (0, after) ∧
        (awake.heap 3).status = .startConnect ∧ (after.heap 3).status = .disconnected ∧
        ¬ServedByStage awake after := by
  refine ⟨kernelSucceeds_strictAlone, undisturbed_strictAlone, _, _, rfl, rfl, rfl, rfl, ?_⟩
  rintro ⟨events, -, served⟩
  have by_stage := served (1, 3) (List.mem_cons_self ..)
  have connecting : Status.disconnected = Status.connecting := by_stage
  exact absurd connecting (by decide)

end Engine
end NetworkBase
