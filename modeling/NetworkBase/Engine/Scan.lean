import NetworkBase.Engine.Steps

/-!
# The scan of `sockets_`

While the worker holds the mutex, other threads may still change the status of a socket, but only
forward.  So one of the statuses `readThread` asks for in order always agrees, and the scan sorts
every socket: it loses none, and it never finds a connecting one.
-/

namespace NetworkBase

namespace Engine

variable {σ ι τ : Type} {cls : SocketClass σ ι} {mux : IoMultiplexing τ} {env : Environment ι}

/-- What happens while the worker holds the mutex: the books stay as they are, and no status goes
back. -/
structure Held (before after : Engine σ τ) : Prop where
  sockets : after.sockets = before.sockets
  fd : after.fd = before.fd
  trace : after.trace = before.trace
  rank_le : ∀ socket, (before.heap socket).status.rank ≤ (after.heap socket).status.rank

namespace Held

theorem refl (engine : Engine σ τ) : Held engine engine := ⟨rfl, rfl, rfl, fun _ => le_rfl⟩

theorem trans {before middle after : Engine σ τ} (first : Held before middle)
    (second : Held middle after) : Held before after where
  sockets := second.sockets.trans first.sockets
  fd := second.fd.trans first.fd
  trace := second.trace.trans first.trace
  rank_le socket := (first.rank_le socket).trans (second.rank_le socket)

theorem interruptLocked {before after : Engine σ τ}
    (execution : interruptLocked cls env before = some after) : Held before after := by
  rw [Engine.interruptLocked, Option.map_eq_some_iff] at execution
  obtain ⟨middle, acted, rfl⟩ := execution
  have held : Held before middle := by
    refine PartialRun.invariant_of_mem (Held before) ?_ acted (refl before)
    intro action mem first next held step
    obtain ⟨-, lock_free⟩ := List.mem_filter.mp mem
    cases action with
    | add socket wake => exact absurd lock_free Bool.false_ne_true
    | query fd => exact absurd lock_free Bool.false_ne_true
    | call socket call =>
        rw [act, Option.map_eq_some_iff] at step
        obtain ⟨object, called, rfl⟩ := step
        refine held.trans ⟨rfl, rfl, rfl, ?_⟩
        intro other
        by_cases same : other = socket
        · subst same
          simp only [store, if_true]
          exact (Socket.callBack_within (cls.send_within) called).rank_le
        · simp only [store, if_neg same]
          exact le_rfl
  exact held.trans ⟨rfl, rfl, rfl, fun _ => le_rfl⟩

end Held

/-- Tests in increasing order that cover every status from the present one on find one that
agrees. -/
theorem firstMatch_isSome {socket : SocketPtr} {tests : List Status} {before after : Engine σ τ}
    {found : Option Status}
    (increasing : tests.Pairwise fun first second => first.rank < second.rank)
    (covered : ∀ status : Status, (before.heap socket).status.rank ≤ status.rank →
      status ∈ tests)
    (execution : firstMatch cls env socket tests before = some (found, after)) :
    Held before after ∧ ∃ status ∈ tests, found = some status := by
  induction tests generalizing before with
  | nil => exact absurd (covered (before.heap socket).status le_rfl) List.not_mem_nil
  | cons test tests ih =>
      simp only [firstMatch, Option.bind_eq_bind, Option.bind_eq_some_iff] at execution
      obtain ⟨middle, interrupted, execution⟩ := execution
      have held := Held.interruptLocked interrupted
      obtain ⟨first, rest⟩ := List.pairwise_cons.mp increasing
      split at execution
      · cases execution
        exact ⟨held, test, List.mem_cons_self .., rfl⟩
      · rename_i differs
        have present_later : (middle.heap socket).status ∈ tests := by
          have listed := covered (middle.heap socket).status (held.rank_le socket)
          exact (List.mem_cons.mp listed).resolve_left differs
        have later : ∀ status : Status, (middle.heap socket).status.rank ≤ status.rank →
            status ∈ tests := by
          intro status above
          have listed := covered status ((held.rank_le socket).trans above)
          rcases List.mem_cons.mp listed with rfl | mem
          · exact absurd above (Nat.not_le.mpr (first _ present_later))
          · exact mem
        obtain ⟨held_after, status, mem, found_eq⟩ := ih rest later execution
        exact ⟨held.trans held_after, status, List.mem_cons_of_mem _ mem, found_eq⟩

/-- `readThread` asks for every status. -/
theorem firstMatch_statusTests {socket : SocketPtr} {before after : Engine σ τ}
    {found : Option Status}
    (execution : firstMatch cls env socket statusTests before = some (found, after)) :
    Held before after ∧ ∃ status, found = some status := by
  have covered : ∀ status : Status, (before.heap socket).status.rank ≤ status.rank →
      status ∈ statusTests := by
    intro status _
    cases status <;> decide
  obtain ⟨held, status, -, found_eq⟩ := firstMatch_isSome (by decide) covered execution
  exact ⟨held, status, found_eq⟩

/-- A relation that others keep while the worker holds the mutex holds over the tests of a
socket. -/
theorem firstMatch_keeps (rel : Engine σ τ → Engine σ τ → Prop) (refl : ∀ engine, rel engine engine)
    (trans : ∀ before middle after, rel before middle → rel middle after → rel before after)
    (interrupted : ∀ before after, interruptLocked cls env before = some after → rel before after)
    {socket : SocketPtr} {tests : List Status} {before after : Engine σ τ} {found : Option Status}
    (execution : firstMatch cls env socket tests before = some (found, after)) :
    rel before after := by
  induction tests generalizing before with
  | nil =>
      cases execution
      exact refl _
  | cons test tests ih =>
      simp only [firstMatch, Option.bind_eq_bind, Option.bind_eq_some_iff] at execution
      obtain ⟨middle, disturbed, execution⟩ := execution
      have first := interrupted _ _ disturbed
      split at execution
      · cases execution
        exact first
      · exact trans _ _ _ first (ih execution)

/-- A relation that others keep while the worker holds the mutex, and the removal of a socket keeps,
holds over the scan. -/
theorem scan_keeps (rel : Engine σ τ → Engine σ τ → Prop) (refl : ∀ engine, rel engine engine)
    (trans : ∀ before middle after, rel before middle → rel middle after → rel before after)
    (interrupted : ∀ before after, interruptLocked cls env before = some after → rel before after)
    (erased : ∀ fd engine, rel engine (engine.eraseFd fd))
    {rest : List (Nat × SocketPtr)} {found final : Scan} {before after : Engine σ τ}
    {matched : Bool} (execution : scan cls env rest found before = some (matched, final, after)) :
    rel before after := by
  induction rest generalizing found before with
  | nil =>
      cases execution
      exact refl _
  | cons entry rest ih =>
      obtain ⟨fd, socket⟩ := entry
      simp only [scan, Option.bind_eq_bind, Option.bind_eq_some_iff] at execution
      obtain ⟨⟨status, middle⟩, matching, execution⟩ := execution
      have first := firstMatch_keeps rel refl trans interrupted matching
      cases status with
      | none =>
          cases execution
          exact first
      | some status =>
          cases status with
          | init => exact trans _ _ _ first (ih execution)
          | startConnect => exact trans _ _ _ first (ih execution)
          | connecting => exact trans _ _ _ first (ih execution)
          | connected => exact trans _ _ _ first (ih execution)
          | disconnected =>
              exact trans _ _ _ first (trans _ _ _ (erased fd middle) (ih execution))

/-- How far the scan got: what lies ahead is still in `sockets_`, and so is what was found in use;
what was found lies behind. -/
structure Sifted (rest : List (Nat × SocketPtr)) (found : Scan) (engine : Engine σ τ) : Prop where
  ahead : ∀ entry ∈ rest, entry ∈ engine.sockets.entries
  startConnect : ∀ entry ∈ found.startConnect.entries,
    entry ∈ engine.sockets.entries ∧ ∀ later ∈ rest, entry.1 < later.1
  connected : ∀ entry ∈ found.connected.entries,
    entry ∈ engine.sockets.entries ∧ ∀ later ∈ rest, entry.1 < later.1
  disconnect : ∀ entry ∈ found.disconnect.entries, ∀ later ∈ rest, entry.1 < later.1
  connecting : found.connecting.entries = []

namespace Sifted

variable {fd : Nat} {socket : SocketPtr} {rest : List (Nat × SocketPtr)} {found : Scan}
  {engine : Engine σ τ}

theorem start (engine : Engine σ τ) :
    Sifted engine.sockets.entries ⟨.empty, .empty, .empty, .empty⟩ engine where
  ahead _ mem := mem
  startConnect _ mem := absurd mem List.not_mem_nil
  connected _ mem := absurd mem List.not_mem_nil
  disconnect _ mem := absurd mem List.not_mem_nil
  connecting := rfl

/-- Nothing changes when `sockets_` does not. -/
theorem congr {after : Engine σ τ} (sifted : Sifted rest found engine)
    (sockets_eq : after.sockets = engine.sockets) : Sifted rest found after where
  ahead := by
    rw [sockets_eq]
    exact sifted.ahead
  startConnect := by
    rw [sockets_eq]
    exact sifted.startConnect
  connected := by
    rw [sockets_eq]
    exact sifted.connected
  disconnect := sifted.disconnect
  connecting := sifted.connecting

/-- A socket without a connection is passed by. -/
theorem skip (sifted : Sifted ((fd, socket) :: rest) found engine) : Sifted rest found engine where
  ahead entry mem := sifted.ahead entry (List.mem_cons_of_mem _ mem)
  startConnect entry mem :=
    ⟨(sifted.startConnect entry mem).1, fun later later_mem =>
      (sifted.startConnect entry mem).2 later (List.mem_cons_of_mem _ later_mem)⟩
  connected entry mem :=
    ⟨(sifted.connected entry mem).1, fun later later_mem =>
      (sifted.connected entry mem).2 later (List.mem_cons_of_mem _ later_mem)⟩
  disconnect entry mem later later_mem :=
    sifted.disconnect entry mem later (List.mem_cons_of_mem _ later_mem)
  connecting := sifted.connecting

/-- A socket that starts to connect, or is found connecting. -/
theorem start_connect (sifted : Sifted ((fd, socket) :: rest) found engine)
    (first : ∀ later ∈ rest, fd < later.1) :
    Sifted rest { found with startConnect := found.startConnect.insert fd socket } engine where
  ahead := sifted.skip.ahead
  startConnect entry mem := by
    rcases OrderedMap.mem_entries_of_mem_insert mem with rfl | old
    · exact ⟨sifted.ahead _ (List.mem_cons_self ..), first⟩
    · exact sifted.skip.startConnect entry old
  connected := sifted.skip.connected
  disconnect := sifted.skip.disconnect
  connecting := sifted.connecting

/-- A connected socket. -/
theorem connect (sifted : Sifted ((fd, socket) :: rest) found engine)
    (first : ∀ later ∈ rest, fd < later.1) :
    Sifted rest { found with connected := found.connected.insert fd socket } engine where
  ahead := sifted.skip.ahead
  startConnect := sifted.skip.startConnect
  connected entry mem := by
    rcases OrderedMap.mem_entries_of_mem_insert mem with rfl | old
    · exact ⟨sifted.ahead _ (List.mem_cons_self ..), first⟩
    · exact sifted.skip.connected entry old
  disconnect := sifted.skip.disconnect
  connecting := sifted.connecting

/-- A disconnected socket leaves `sockets_`. -/
theorem remove (sifted : Sifted ((fd, socket) :: rest) found engine)
    (first : ∀ later ∈ rest, fd < later.1) :
    Sifted rest { found with disconnect := found.disconnect.insert fd socket }
      (engine.eraseFd fd) where
  ahead entry mem := by
    refine List.mem_filter.mpr ⟨sifted.skip.ahead entry mem, ?_⟩
    exact decide_eq_true (Nat.ne_of_gt (first entry mem))
  startConnect entry mem := by
    obtain ⟨present, before⟩ := sifted.startConnect entry mem
    have ne := Nat.ne_of_lt (before (fd, socket) (List.mem_cons_self ..))
    exact ⟨List.mem_filter.mpr ⟨present, decide_eq_true ne⟩,
      (sifted.skip.startConnect entry mem).2⟩
  connected entry mem := by
    obtain ⟨present, before⟩ := sifted.connected entry mem
    have ne := Nat.ne_of_lt (before (fd, socket) (List.mem_cons_self ..))
    exact ⟨List.mem_filter.mpr ⟨present, decide_eq_true ne⟩, (sifted.skip.connected entry mem).2⟩
  disconnect entry mem later later_mem := by
    rcases OrderedMap.mem_entries_of_mem_insert mem with rfl | old
    · exact first later later_mem
    · exact sifted.skip.disconnect entry old later later_mem
  connecting := sifted.connecting

end Sifted

/-- What the scan leaves: it matched every socket, its maps are parts of `sockets_`, and a socket
left `sockets_` only into the map of disconnected ones. -/
structure Scanned (before : Engine σ τ) (removed : List SocketPtr) (found : Scan)
    (after : Engine σ τ) : Prop where
  sifted : Sifted [] found after
  trace : after.trace = before.trace
  fd : after.fd = before.fd
  values : (before.sockets.values ++ removed).Perm
    (after.sockets.values ++ found.disconnect.values)

theorem scan_spec {rest : List (Nat × SocketPtr)} {found final : Scan} {before after : Engine σ τ}
    {matched : Bool} (sorted : rest.Pairwise fun first second => first.1 < second.1)
    (sifted : Sifted rest found before)
    (execution : scan cls env rest found before = some (matched, final, after)) :
    matched = true ∧ Scanned before found.disconnect.values final after := by
  induction rest generalizing found before with
  | nil =>
      obtain ⟨rfl, rfl, rfl⟩ : true = matched ∧ found = final ∧ before = after := by
        simpa [scan] using execution
      exact ⟨rfl, sifted, rfl, rfl, List.Perm.refl _⟩
  | cons entry rest ih =>
      obtain ⟨fd, socket⟩ := entry
      obtain ⟨first, rest_sorted⟩ := List.pairwise_cons.mp sorted
      simp only [scan, Option.bind_eq_bind, Option.bind_eq_some_iff] at execution
      obtain ⟨⟨status, middle⟩, matching, execution⟩ := execution
      obtain ⟨held, status, rfl⟩ := firstMatch_statusTests matching
      have sifted_middle := sifted.congr held.sockets
      -- A socket in use stays in `sockets_`, so the books of the rest are those of the whole.
      have stays : ∀ {next : Scan}, Sifted rest next middle →
          scan cls env rest next middle = some (matched, final, after) →
          next.disconnect = found.disconnect →
          matched = true ∧ Scanned before found.disconnect.values final after := by
        intro next sifted_next scanned same
        obtain ⟨all, later⟩ := ih rest_sorted sifted_next scanned
        refine ⟨all, later.sifted, later.trace.trans held.trace, later.fd.trans held.fd, ?_⟩
        rw [← held.sockets, ← same]
        exact later.values
      cases status with
      | init => exact stays sifted_middle.skip execution rfl
      | startConnect => exact stays (sifted_middle.start_connect first) execution rfl
      | connecting => exact stays (sifted_middle.start_connect first) execution rfl
      | connected => exact stays (sifted_middle.connect first) execution rfl
      | disconnected =>
          obtain ⟨all, later⟩ := ih rest_sorted (sifted_middle.remove first) execution
          refine ⟨all, later.sifted, later.trace.trans held.trace, later.fd.trans held.fd, ?_⟩
          have present : (fd, socket) ∈ middle.sockets.entries :=
            sifted_middle.ahead _ (List.mem_cons_self ..)
          have inserted : (found.disconnect.insert fd socket).values =
              found.disconnect.values ++ [socket] := by
            rw [OrderedMap.values, OrderedMap.entries_insert_of_lt
              (fun other mem => sifted.disconnect other mem _ (List.mem_cons_self ..)),
              List.map_append]
            rfl
          have taken := OrderedMap.values_perm_of_mem present
          have moved : (middle.sockets.values ++ found.disconnect.values).Perm
              ((middle.sockets.erase fd).values ++ (found.disconnect.values ++ [socket])) := by
            refine (taken.append_right _).trans ?_
            rw [← List.append_assoc]
            exact (List.perm_append_singleton _ _).symm
          rw [← held.sockets]
          apply moved.trans
          rw [← inserted]
          exact later.values

/-! ## Whole rounds -/

/-- A relation that holds from each state of the worker to the next in all its rounds, if no socket
it finds is connecting. -/
structure Cycles (cls : SocketClass σ ι) (mux : IoMultiplexing τ) (env : Environment ι)
    (rel : Engine σ τ → Engine σ τ → Prop) : Prop
    extends Attends cls mux env (fun _ _ => True) rel where
  interruptLocked : ∀ before after, interruptLocked cls env before = some after →
    rel before after
  sleep : ∀ engine, rel engine (sleep mux engine)
  lock : ∀ engine, rel engine (engine.lock .worker)
  unlock : ∀ engine, rel engine (engine.unlock .worker)
  erase : ∀ fd engine, rel engine (engine.eraseFd fd)
  drain : ∀ reads (engine : Engine σ τ),
    rel engine { engine with pair := engine.pair.readable reads }

/-- A relation that holds from each state of the worker to the next in everything it does. -/
structure Pervades (cls : SocketClass σ ι) (mux : IoMultiplexing τ) (env : Environment ι)
    (rel : Engine σ τ → Engine σ τ → Prop) : Prop extends Cycles cls mux env rel where
  swap : ∀ engine, rel engine engine.swapOut.2
  close : ∀ socket (engine : Engine σ τ),
    rel engine (engine.store socket (engine.heap socket).close)

namespace Cycles

variable {rel : Engine σ τ → Engine σ τ → Prop} {before after : Engine σ τ} {ret : Int}

theorem waitForSockets (cycles : Cycles cls mux env rel)
    (execution : waitForSockets cls mux env before = some (ret, after)) : rel before after :=
  waitForSockets_keeps rel cycles.trans cycles.interrupt cycles.dispatch cycles.fdCheck
    cycles.drain execution

/-- The scan finds no connecting socket, so what follows it only attends to sockets. -/
theorem scanAndServe (cycles : Cycles cls mux env rel)
    (execution : scanAndServe cls mux env before = some (ret, after)) : rel before after := by
  simp only [Engine.scanAndServe, Option.bind_eq_bind, Option.bind_eq_some_iff] at execution
  obtain ⟨⟨matched, found, middle⟩, scanned, execution⟩ := execution
  obtain ⟨rfl, books⟩ := scan_spec (before.lock .worker).sockets.sorted
    (Sifted.start (before.lock .worker)) scanned
  have sifting : rel (before.lock .worker) middle :=
    scan_keeps rel cycles.refl cycles.trans cycles.interruptLocked cycles.erase scanned
  have locked := cycles.trans _ _ _ (cycles.lock before) sifting
  have released := cycles.trans _ _ _ locked (cycles.unlock middle)
  rw [if_pos rfl] at execution
  have served := cycles.serve books.sifted.connecting (fun _ _ => trivial)
    (fun _ _ => trivial) (fun _ _ => ⟨trivial, trivial⟩) execution
  exact cycles.trans _ _ _ released served

theorem readThread (cycles : Cycles cls mux env rel)
    (execution : readThread cls mux env before = some (ret, after)) : rel before after := by
  simp only [Engine.readThread, Engine.wake, Option.bind_eq_bind, Option.bind_eq_some_iff]
    at execution
  obtain ⟨awake, ⟨slept, interrupted, finished⟩, execution⟩ := execution
  cases finished
  have rested := cycles.trans _ _ _ (cycles.sleep before)
    (cycles.interrupt _ slept interrupted)
  have taken := cycles.trans _ _ _ rested (cycles.lock slept)
  split at execution
  · have released := cycles.trans _ _ _ taken (cycles.unlock _)
    exact cycles.trans _ _ _ released (cycles.waitForSockets execution)
  · exact cycles.trans _ _ _ taken (cycles.scanAndServe execution)

end Cycles

theorem Pervades.afterThread {rel : Engine σ τ → Engine σ τ → Prop} {before after : Engine σ τ}
    (pervades : Pervades cls mux env rel)
    (execution : afterThread cls env before = some after) : rel before after := by
  simp only [Engine.afterThread, Option.bind_eq_bind, Option.bind_eq_some_iff] at execution
  obtain ⟨middle, interrupted, closed⟩ := execution
  have swapped := pervades.trans _ _ _ (pervades.interrupt before middle interrupted)
    (pervades.swap middle)
  have closing := pervades.closeAll pervades.close (fun _ _ => trivial) closed
  exact pervades.trans _ _ _ swapped closing

end Engine
end NetworkBase
