import NetworkBase.Engine.Scan

/-!
# What a round sees of the sockets

Other threads and callbacks reach a socket only through its public methods.  These never change its
descriptor, and they only start or give up a connection; so the status that the scan found for a
socket tells much about the status before and after it.
-/

namespace NetworkBase

/-- What other threads can do to a status. -/
def Status.Moves (before after : Status) : Prop :=
  after = before ∨ after = .disconnected ∨ (before = .init ∧ after = .startConnect)

theorem Status.Moves.trans {before middle after : Status} (first : Moves before middle)
    (second : Moves middle after) : Moves before after := by
  rcases second with rfl | rfl | ⟨rfl, rfl⟩
  · exact first
  · exact .inr (.inl rfl)
  · rcases first with rfl | gone | ⟨-, started⟩
    · exact .inr (.inr ⟨rfl, rfl⟩)
    · exact absurd gone (by decide)
    · exact absurd started (by decide)

/-- A virtual method only starts or gives up a connection. -/
theorem Socket.SubSteps.moves {σ : Type} {allowed : Event → Prop} {before after : Socket σ}
    (steps : SubSteps allowed before after) : before.status.Moves after.status := by
  refine steps.preserves (fun socket => before.status.Moves socket.status) ?_ (.inl rfl)
  intro first next step moves
  cases step with
  | connect now timeoutMs =>
      rcases connect_cases now timeoutMs first with ⟨fresh, started, -⟩ | ⟨same, -⟩
      · exact moves.trans (.inr (.inr ⟨fresh, started⟩))
      · rw [same]
        exact moves
  | close => exact .inr (.inl rfl)
  | _ => exact moves

namespace Engine

variable {σ ι τ : Type} {cls : SocketClass σ ι} {mux : IoMultiplexing τ} {env : Environment ι}
  {before after : Engine σ τ}

/-! ## The sockets among other threads -/

/-- What other threads and callbacks do to any one socket. -/
theorem allows_object (cls : SocketClass σ ι) (socket : SocketPtr) :
    Allows cls fun (before after : Engine σ τ) =>
      Socket.SubSteps Socket.quiet (before.heap socket) (after.heap socket) where
  refl _ := .refl _
  trans _ _ _ := Socket.SubSteps.trans
  act thread action before after step := by
    cases action with
    | add other wake =>
        cases step
        exact .refl _
    | query fd =>
        cases step
        rw [snd_query]
        exact .refl _
    | call other call =>
        rw [act, Option.map_eq_some_iff] at step
        obtain ⟨object, called, rfl⟩ := step
        by_cases same : socket = other
        · subst same
          rw [heap_store_self]
          exact Socket.callBack_within cls.send_within called
        · rw [heap_store_of_ne same]
          exact .refl _
  tick _ := .refl _

theorem interrupt_object (execution : interrupt cls env before = some after)
    (socket : SocketPtr) :
    Socket.SubSteps Socket.quiet (before.heap socket) (after.heap socket) :=
  (allows_object cls socket).interrupt execution

theorem interruptLocked_object (execution : interruptLocked cls env before = some after)
    (socket : SocketPtr) :
    Socket.SubSteps Socket.quiet (before.heap socket) (after.heap socket) :=
  (allows_object cls socket).interruptLocked execution

theorem wake_object (execution : wake cls mux env before = some after) (socket : SocketPtr) :
    Socket.SubSteps Socket.quiet (before.heap socket) (after.heap socket) := by
  rw [wake, Option.bind_eq_bind, Option.bind_eq_some_iff] at execution
  obtain ⟨middle, interrupted, finished⟩ := execution
  cases finished
  exact interrupt_object interrupted socket

/-- A call into a socket performs the method and then what the callbacks do. -/
theorem callSocket_object {call : RealCall} {method : Socket σ → Option (Socket σ)}
    {socket : SocketPtr} (execution : callSocket cls env call method socket before = some after) :
    (∃ next, method (before.heap socket) = some next ∧
      Socket.SubSteps Socket.quiet next (after.heap socket)) ∧
    ∀ other, other ≠ socket →
      Socket.SubSteps Socket.quiet (before.heap other) (after.heap other) := by
  simp only [callSocket, Option.bind_eq_bind, Option.bind_eq_some_iff] at execution
  obtain ⟨next, called, middle, acted, finished⟩ := execution
  cases finished
  constructor
  · refine ⟨next, called, ?_⟩
    have steps := (allows_object cls socket).acts acted
    rwa [heap_store_self] at steps
  · intro other differs
    have steps := (allows_object cls other).acts acted
    rwa [heap_store_of_ne differs] at steps

/-! ## The statuses the scan finds -/

/-- The scan without its maps: the status it found for each socket. -/
def observe (cls : SocketClass σ ι) (env : Environment ι) :
    List (Nat × SocketPtr) → Engine σ τ → Option (List (Status × Nat × SocketPtr) × Engine σ τ)
  | [], engine => some ([], engine)
  | (fd, socket) :: rest, engine => do
      let (status, engine) ← firstMatch cls env socket statusTests engine
      match status with
      | none => none
      | some status =>
          let engine := if status = .disconnected then engine.eraseFd fd else engine
          let (seen, engine) ← observe cls env rest engine
          some ((status, fd, socket) :: seen, engine)

/-- The statuses that a round finds. -/
def observed (cls : SocketClass σ ι) (mux : IoMultiplexing τ) (env : Environment ι)
    (engine : Engine σ τ) : Option (List (Status × Nat × SocketPtr)) := do
  let awake ← wake cls mux env engine
  let (seen, _) ← observe cls env awake.sockets.entries (awake.lock .worker)
  some seen

/-- The entries whose status passes a test. -/
def withStatus (test : Status → Bool) (seen : List (Status × Nat × SocketPtr)) :
    List (Nat × SocketPtr) := (seen.filter fun sight => test sight.1).map Prod.snd

theorem mem_withStatus {test : Status → Bool} {seen : List (Status × Nat × SocketPtr)}
    {entry : Nat × SocketPtr} :
    entry ∈ withStatus test seen ↔ ∃ status, (status, entry) ∈ seen ∧ test status = true := by
  simp [withStatus]

/-- The status that agrees is the status of the socket at some time during the tests. -/
theorem firstMatch_object {socket : SocketPtr} {tests : List Status} {status : Status}
    (execution : firstMatch cls env socket tests before = some (some status, after)) :
    (before.heap socket).status.Moves status ∧ (after.heap socket).status = status := by
  induction tests generalizing before with
  | nil => cases execution
  | cons test tests ih =>
      simp only [firstMatch, Option.bind_eq_bind, Option.bind_eq_some_iff] at execution
      obtain ⟨middle, interrupted, execution⟩ := execution
      have moves := (interruptLocked_object interrupted socket).moves
      split at execution
      · rename_i agrees
        cases execution
        rw [agrees] at moves
        exact ⟨moves, agrees⟩
      · obtain ⟨later, agrees⟩ := ih execution
        exact ⟨moves.trans later, agrees⟩

/-- Nothing happens during the tests but what other threads do. -/
theorem firstMatch_steps {socket : SocketPtr} {tests : List Status} {found : Option Status}
    (execution : firstMatch cls env socket tests before = some (found, after)) :
    after.io = before.io ∧ after.sockets = before.sockets ∧ before.time ≤ after.time ∧ ∀ other,
      Socket.SubSteps Socket.quiet (before.heap other) (after.heap other) :=
  firstMatch_keeps
    (fun (first last : Engine σ τ) => last.io = first.io ∧ last.sockets = first.sockets ∧
      first.time ≤ last.time ∧
        ∀ other, Socket.SubSteps Socket.quiet (first.heap other) (last.heap other))
    (fun _ => ⟨rfl, rfl, Nat.le_refl _, fun _ => .refl _⟩)
    (fun _ _ _ ⟨io, sockets, time, steps⟩ ⟨io', sockets', time', steps'⟩ =>
      ⟨io'.trans io, sockets'.trans sockets, time.trans time',
        fun other => (steps other).trans (steps' other)⟩)
    (fun _ _ interrupted => ⟨((Outside.allows cls).interruptLocked interrupted).io,
      (Held.interruptLocked interrupted).sockets, (allows_time cls).interruptLocked interrupted,
      interruptLocked_object interrupted⟩) execution

/-- What the scan found: every socket once, with a status it had meanwhile; what was disconnected is
no longer in `sockets_`. -/
structure Sights (entries : List (Nat × SocketPtr)) (before : Engine σ τ)
    (seen : List (Status × Nat × SocketPtr)) (after : Engine σ τ) : Prop where
  entries : seen.map Prod.snd = entries
  status : ∀ sight ∈ seen, (before.heap sight.2.2).status.Moves sight.1 ∧
    sight.1.Moves (after.heap sight.2.2).status
  steps : ∀ socket, Socket.SubSteps Socket.quiet (before.heap socket) (after.heap socket)
  io : after.io = before.io
  time_le : before.time ≤ after.time
  subset : after.sockets.entries ⊆ before.sockets.entries
  removed : ∀ entry, (.disconnected, entry) ∈ seen → entry ∉ after.sockets.entries

/-- The sockets with a status are some of those that were found. -/
theorem Sights.withStatus_sublist {entries : List (Nat × SocketPtr)}
    {seen : List (Status × Nat × SocketPtr)} (sights : Sights entries before seen after)
    (test : Status → Bool) : (withStatus test seen).Sublist entries := by
  rw [← sights.entries]
  exact List.filter_sublist.map Prod.snd

/-- What the scan does with a socket whose status it knows. -/
theorem sights_cons {fd : Nat} {socket : SocketPtr} {status : Status}
    {entries : List (Nat × SocketPtr)} {seen : List (Status × Nat × SocketPtr)}
    {tests : List Status} {middle : Engine σ τ}
    (matching : firstMatch cls env socket tests before = some (some status, middle))
    (sights : Sights entries (if status = .disconnected then middle.eraseFd fd else middle) seen
      after) : Sights ((fd, socket) :: entries) before ((status, fd, socket) :: seen) after := by
  obtain ⟨io_eq, sockets_eq, time_le, steps⟩ := firstMatch_steps matching
  obtain ⟨found, agrees⟩ := firstMatch_object matching
  have same : (if status = .disconnected then middle.eraseFd fd else middle).heap = middle.heap ∧
      (if status = .disconnected then middle.eraseFd fd else middle).io = middle.io ∧
      (if status = .disconnected then middle.eraseFd fd else middle).time = middle.time ∧
        (if status = .disconnected then middle.eraseFd fd else middle).sockets.entries ⊆
          before.sockets.entries := by
    rw [← sockets_eq]
    split
    · exact ⟨rfl, rfl, rfl, List.filter_subset_self _⟩
    · exact ⟨rfl, rfl, rfl, List.Subset.refl _⟩
  obtain ⟨same_heap, same_io, same_time, subset⟩ := same
  have rest_status := sights.status
  have rest_steps := sights.steps
  rw [same_heap] at rest_status rest_steps
  refine ⟨congrArg ((fd, socket) :: ·) sights.entries, ?_,
    fun other => (steps other).trans (rest_steps other), sights.io.trans (same_io.trans io_eq),
    time_le.trans (same_time ▸ sights.time_le), List.Subset.trans sights.subset subset, ?_⟩
  · refine List.forall_mem_cons.mpr ⟨⟨found, ?_⟩, ?_⟩
    · have moved := (rest_steps socket).moves
      rwa [agrees] at moved
    · intro sight mem
      obtain ⟨before_moves, after_moves⟩ := rest_status sight mem
      exact ⟨(steps sight.2.2).moves.trans before_moves, after_moves⟩
  · intro entry mem
    rcases List.mem_cons.mp mem with first | later
    · injection first with gone entry_eq
      subst entry_eq
      intro present
      have kept := sights.subset present
      rw [if_pos gone.symm] at kept
      exact absurd (of_decide_eq_true (List.mem_filter.mp kept).2) (by simp)
    · exact sights.removed entry later

theorem sights_of_observe {entries : List (Nat × SocketPtr)}
    {seen : List (Status × Nat × SocketPtr)}
    (execution : observe cls env entries before = some (seen, after)) :
    Sights entries before seen after := by
  induction entries generalizing before seen with
  | nil =>
      cases execution
      exact ⟨rfl, fun _ mem => absurd mem List.not_mem_nil, fun _ => .refl _, rfl, Nat.le_refl _,
        List.Subset.refl _, fun _ mem => absurd mem List.not_mem_nil⟩
  | cons entry entries ih =>
      obtain ⟨fd, socket⟩ := entry
      simp only [observe, Option.bind_eq_bind, Option.bind_eq_some_iff] at execution
      obtain ⟨⟨found, middle⟩, matching, execution⟩ := execution
      cases found with
      | none => cases execution
      | some status =>
          simp only [Option.bind_eq_some_iff] at execution
          obtain ⟨⟨later, final⟩, rest, finished⟩ := execution
          cases finished
          exact sights_cons matching (ih rest)

/-- The maps of the scan hold the sockets by the statuses that were found. -/
theorem observe_of_scan {rest : List (Nat × SocketPtr)} {found final : Scan} {matched : Bool}
    (sorted : rest.Pairwise fun first second => first.1 < second.1)
    (sifted : Sifted rest found before)
    (execution : scan cls env rest found before = some (matched, final, after)) :
    ∃ seen, observe cls env rest before = some (seen, after) ∧
      final.startConnect.entries = found.startConnect.entries ++
        withStatus (fun status => status = .startConnect ∨ status = .connecting) seen ∧
      final.connected.entries = found.connected.entries ++ withStatus (· = .connected) seen ∧
      final.disconnect.entries =
        found.disconnect.entries ++ withStatus (· = .disconnected) seen := by
  induction rest generalizing found before with
  | nil =>
      cases execution
      exact ⟨[], rfl, (List.append_nil _).symm, (List.append_nil _).symm,
        (List.append_nil _).symm⟩
  | cons entry rest ih =>
      obtain ⟨fd, socket⟩ := entry
      obtain ⟨first, rest_sorted⟩ := List.pairwise_cons.mp sorted
      simp only [scan, Option.bind_eq_bind, Option.bind_eq_some_iff] at execution
      obtain ⟨⟨status, middle⟩, matching, execution⟩ := execution
      obtain ⟨held, status, rfl⟩ := firstMatch_statusTests matching
      have sifted_middle := sifted.congr held.sockets
      have head_mem : (fd, socket) ∈ (fd, socket) :: rest := List.mem_cons_self ..
      have started := OrderedMap.entries_insert_of_lt
        (fun other mem => (sifted.startConnect other mem).2 _ head_mem) socket
      have connected := OrderedMap.entries_insert_of_lt
        (fun other mem => (sifted.connected other mem).2 _ head_mem) socket
      have disconnected := OrderedMap.entries_insert_of_lt
        (fun other mem => sifted.disconnect other mem _ head_mem) socket
      cases status with
      | init =>
          obtain ⟨seen, saw, starts, connects, disconnects⟩ :=
            ih rest_sorted sifted_middle.skip execution
          exact ⟨(.init, fd, socket) :: seen, by simp [observe, matching, saw], starts, connects,
            disconnects⟩
      | startConnect =>
          obtain ⟨seen, saw, starts, connects, disconnects⟩ :=
            ih rest_sorted (sifted_middle.start_connect first) execution
          refine ⟨(.startConnect, fd, socket) :: seen, by simp [observe, matching, saw], ?_,
            connects, disconnects⟩
          rw [starts, started, List.append_assoc]
          rfl
      | connecting =>
          obtain ⟨seen, saw, starts, connects, disconnects⟩ :=
            ih rest_sorted (sifted_middle.start_connect first) execution
          refine ⟨(.connecting, fd, socket) :: seen, by simp [observe, matching, saw], ?_,
            connects, disconnects⟩
          rw [starts, started, List.append_assoc]
          rfl
      | connected =>
          obtain ⟨seen, saw, starts, connects, disconnects⟩ :=
            ih rest_sorted (sifted_middle.connect first) execution
          refine ⟨(.connected, fd, socket) :: seen, by simp [observe, matching, saw], starts, ?_,
            disconnects⟩
          rw [connects, connected, List.append_assoc]
          rfl
      | disconnected =>
          obtain ⟨seen, saw, starts, connects, disconnects⟩ :=
            ih rest_sorted (sifted_middle.remove first) execution
          refine ⟨(.disconnected, fd, socket) :: seen, by simp [observe, matching, saw], starts,
            connects, ?_⟩
          rw [disconnects, disconnected, List.append_assoc]
          rfl

/-! ## A whole round -/

/-- The stations of a round that found sockets: the worker is awake, the scan has found the statuses
and sorted the sockets by them, and the loops follow. -/
structure Round (cls : SocketClass σ ι) (mux : IoMultiplexing τ) (env : Environment ι)
    (seen : List (Status × Nat × SocketPtr)) (found : Scan) (ret : Int)
    (before awake scanned closed started after : Engine σ τ) : Prop where
  woken : wake cls mux env before = some awake
  observed : observed cls mux env before = some seen
  sights : Sights awake.sockets.entries (awake.lock .worker) seen scanned
  books : Scanned (awake.lock .worker) [] found scanned
  startConnect : found.startConnect.entries =
    withStatus (fun status => status = .startConnect ∨ status = .connecting) seen
  connected : found.connected.entries = withStatus (· = .connected) seen
  disconnect : found.disconnect.entries = withStatus (· = .disconnected) seen
  closing :
    closeInvalid cls mux env found.disconnect.entries (scanned.unlock .worker) = some closed
  starting : startConnects cls env found.startConnect.entries closed = some started
  serving : dispatchReady cls mux env found.connected.entries started = some (ret, after)

/-- A round waits when it finds no socket, and else serves the sockets by the statuses it finds. -/
theorem readThread_cases {ret : Int}
    (execution : readThread cls mux env before = some (ret, after)) :
    (∃ awake, wake cls mux env before = some awake ∧ awake.sockets.entries = [] ∧
        observed cls mux env before = some [] ∧
        waitForSockets cls mux env (awake.unlock .worker) = some (ret, after)) ∨
      ∃ seen found awake scanned closed started,
        Round cls mux env seen found ret before awake scanned closed started after := by
  simp only [readThread, Option.bind_eq_bind, Option.bind_eq_some_iff] at execution
  obtain ⟨awake, woken, execution⟩ := execution
  split at execution
  · rename_i empty
    rw [List.isEmpty_iff] at empty
    left
    refine ⟨awake, woken, empty, ?_, execution⟩
    rw [observed, woken, Option.bind_eq_bind, Option.bind_some, empty, observe]
    rfl
  · right
    simp only [scanAndServe, Option.bind_eq_bind, Option.bind_eq_some_iff] at execution
    obtain ⟨⟨matched, found, scanned⟩, sorting, served⟩ := execution
    have sorted := (awake.lock .worker).sockets.sorted
    have start := Sifted.start (awake.lock .worker)
    obtain ⟨rfl, books⟩ := scan_spec sorted start sorting
    obtain ⟨seen, saw, starts, connects, disconnects⟩ := observe_of_scan sorted start sorting
    simp only [if_true, serve, books.sifted.connecting, checkConnecting, Option.bind_eq_bind,
      Option.bind_eq_some_iff, Option.bind_some] at served
    obtain ⟨closed, closing, started, starting, serving⟩ := served
    refine ⟨seen, found, awake, scanned, closed, started, woken, ?_, sights_of_observe saw, books,
      starts, connects, disconnects, closing, starting, serving⟩
    simp only [observed, Option.bind_eq_bind, Option.bind_eq_some_iff]
    exact ⟨awake, woken, (seen, scanned), saw, rfl⟩

namespace Round

variable {seen : List (Status × Nat × SocketPtr)} {found : Scan} {ret : Int}
  {awake scanned closed started : Engine σ τ}

/-- The loops behind the scan make progress. -/
theorem progress (round : Round cls mux env seen found ret before awake scanned closed started
    after) : Progress (scanned.unlock .worker) closed ∧ Progress closed after := by
  have follows := Progress.follows cls mux env
  refine ⟨follows.closeInvalid (fun _ _ => trivial) round.closing, ?_⟩
  exact (follows.startConnects (fun _ _ => trivial) round.starting).trans
    (follows.dispatchReady (fun _ _ => ⟨trivial, trivial⟩) round.serving)

/-- The status that was found for a socket follows the one it had before. -/
theorem status (round : Round cls mux env seen found ret before awake scanned closed started
    after) : ∀ sight ∈ seen, (before.heap sight.2.2).status.Moves sight.1 :=
  fun sight mem =>
    (wake_object round.woken sight.2.2).moves.trans (round.sights.status sight mem).1

/-- What was found connecting or connected is still in `sockets_`. -/
theorem stays (round : Round cls mux env seen found ret before awake scanned closed started
    after) {entry : Nat × SocketPtr} (watched : entry ∈
      withStatus (fun status => status = .connecting ∨ status = .connected) seen) :
    entry ∈ after.sockets.entries := by
  have behind : Progress (scanned.unlock .worker) after := round.progress.1.trans round.progress.2
  obtain ⟨fresh, entries_eq, -⟩ := behind.entries
  rw [entries_eq]
  apply List.mem_append_left
  obtain ⟨status, mem, status_eq⟩ := mem_withStatus.mp watched
  rcases of_decide_eq_true status_eq with rfl | rfl
  · have listed : entry ∈ found.startConnect.entries := by
      rw [round.startConnect]
      exact mem_withStatus.mpr ⟨_, mem, rfl⟩
    exact (round.books.sifted.startConnect entry listed).1
  · have listed : entry ∈ found.connected.entries := by
      rw [round.connected]
      exact mem_withStatus.mpr ⟨_, mem, rfl⟩
    exact (round.books.sifted.connected entry listed).1

end Round

/-! ## The trace of a run -/

/-- A round only adds to the trace. -/
theorem readThread_trace {ret : Int}
    (execution : readThread cls mux env before = some (ret, after)) :
    before.trace <+: after.trace := by
  rcases readThread_cases execution with ⟨awake, woken, -, -, waited⟩ |
    ⟨seen, found, awake, scanned, closed, started, round⟩
  · have unlocked := Progress.of_grown (Grown.unlock .worker awake)
    have waiting := unlocked.trans (.of_grown (Grown.waitForSockets waited))
    exact (Progress.of_grown (Grown.wake woken)).trace.trans waiting.trace
  · have waking := (Progress.of_grown (Grown.wake round.woken)).trace
    have locked := (Progress.of_grown (Grown.lock .worker awake)).trace
    have unlocked := Progress.of_grown (Grown.unlock .worker scanned)
    rw [← round.books.trace] at locked
    exact waking.trans (locked.trans
      ((unlocked.trans round.progress.1).trans round.progress.2).trace)

theorem rounds_trace {count : Nat} (execution : rounds cls mux env count before = some after) :
    before.trace <+: after.trace := by
  induction count generalizing before with
  | zero =>
      cases execution
      exact List.prefix_rfl
  | succ count ih =>
      simp only [rounds, Option.bind_eq_bind, Option.bind_eq_some_iff] at execution
      obtain ⟨⟨ret, middle⟩, round, execution⟩ := execution
      have first := readThread_trace round
      split at execution
      · cases execution
        exact first
      · exact first.trans (ih execution)

theorem afterThread_trace (mux : IoMultiplexing τ)
    (execution : afterThread cls env before = some after) :
    before.trace <+: after.trace := by
  simp only [afterThread, Option.bind_eq_bind, Option.bind_eq_some_iff] at execution
  obtain ⟨swapped, interrupted, closed⟩ := execution
  have disturbed := (Progress.of_grown (Grown.interrupt interrupted)).trace
  have swapping : swapped.trace <+: swapped.swapOut.2.trace :=
    ⟨[.lock .worker, .swapped, .unlock .worker], by simp [swapOut, lock, unlock, record]⟩
  have closing := (Progress.follows cls mux env).closeAll
    (fun _ _ => Progress.of_grown (Grown.of_same rfl rfl rfl)) (fun _ _ => trivial) closed
  exact disturbed.trans (swapping.trans closing.trace)

end Engine
end NetworkBase
