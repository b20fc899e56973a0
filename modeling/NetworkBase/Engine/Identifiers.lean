import NetworkBase.Engine.WakeUp

/-!
# The numbers of the sockets

`Add` numbers the sockets, and `Query` finds a socket by its number.  A run is taken apart into what
happens to `sockets_`, one step after the other, so that a query may fall between any two of them.
-/

namespace NetworkBase
namespace Engine

variable {σ ι τ : Type} {cls : SocketClass σ ι} {mux : IoMultiplexing τ} {env : Environment ι}
  {before middle after : Engine σ τ}

/-! ## What happens to `sockets_` -/

/-- What may happen next. -/
inductive Happening
  /-- A thread calls `Add` or `Query`, or calls a socket. -/
  | act (thread : ThreadId) (action : UserAction)
  /-- The scan takes a number out. -/
  | erase (fd : Nat)
  /-- `afterThread` takes all numbers out. -/
  | swap
  /-- Something that neither `Add` nor `Query` knows of. -/
  | beside

/-- The number is taken out, if it is there. -/
def Happening.Removes (fd : Nat) : Happening → Prop
  | .erase gone => gone = fd
  | .swap => True
  | .act .. | .beside => False

/-- From one state to the next. -/
inductive Happens (cls : SocketClass σ ι) : Happening → Engine σ τ → Engine σ τ → Prop
  | act {thread : ThreadId} {action : UserAction} {before after : Engine σ τ}
      (acted : act cls thread action before = some after) :
      Happens cls (.act thread action) before after
  | erase (fd : Nat) (engine : Engine σ τ) : Happens cls (.erase fd) engine (engine.eraseFd fd)
  | swap (engine : Engine σ τ) : Happens cls .swap engine engine.swapOut.2
  | beside {before after : Engine σ τ} (sockets_eq : after.sockets = before.sockets)
      (fd_eq : after.fd = before.fd) (admitted_eq : admitted after.trace = admitted before.trace) :
      Happens cls .beside before after

/-- One after the other. -/
inductive Course (cls : SocketClass σ ι) : List Happening → Engine σ τ → Engine σ τ → Prop
  | nil (engine : Engine σ τ) : Course cls [] engine engine
  | cons {happening : Happening} {rest : List Happening} {before middle after : Engine σ τ}
      (first : Happens cls happening before middle) (later : Course cls rest middle after) :
      Course cls (happening :: rest) before after

namespace Course

theorem append {early late : List Happening} (first : Course cls early before middle)
    (second : Course cls late middle after) : Course cls (early ++ late) before after := by
  induction first with
  | nil => exact second
  | cons step _ ih => exact .cons step (ih second)

theorem single {happening : Happening} (step : Happens cls happening before after) :
    Course cls [happening] before after := .cons step (.nil after)

end Course

/-! ## The calls taken apart -/

/-- The worker and the other threads lead from one state to the other. -/
def Leads (cls : SocketClass σ ι) (before after : Engine σ τ) : Prop :=
  ∃ happenings, Course cls happenings before after

namespace Leads

theorem refl (engine : Engine σ τ) : Leads cls engine engine := ⟨[], .nil engine⟩

theorem trans (first : Leads cls before middle) (second : Leads cls middle after) :
    Leads cls before after := by
  obtain ⟨early, reached⟩ := first
  obtain ⟨late, reaches⟩ := second
  exact ⟨early ++ late, reached.append reaches⟩

theorem of_happens {happening : Happening} (step : Happens cls happening before after) :
    Leads cls before after := ⟨[happening], .single step⟩

theorem of_same (sockets_eq : after.sockets = before.sockets) (fd_eq : after.fd = before.fd)
    (trace_eq : after.trace = before.trace) : Leads cls before after :=
  of_happens (.beside sockets_eq fd_eq (congrArg admitted trace_eq))

theorem record {event : EngineEvent} (none_added : admittedEntry event = none)
    (engine : Engine σ τ) : Leads cls engine (engine.record event) := by
  refine of_happens (.beside rfl rfl ?_)
  have quiet : admitted [event] = [] := by simp [admitted, none_added]
  rw [Engine.record, admitted_append, quiet, List.append_nil]

theorem allows (cls : SocketClass σ ι) :
    Allows cls (Leads cls : Engine σ τ → Engine σ τ → Prop) where
  refl := refl
  trans _ _ _ := trans
  act _ _ _ _ acted := of_happens (.act acted)
  tick _ := of_same rfl rfl rfl

theorem interrupt (execution : interrupt cls env before = some after) : Leads cls before after :=
  (allows cls).interrupt execution

theorem callSocket {call : RealCall} {method : Socket σ → Option (Socket σ)} {socket : SocketPtr}
    (execution : callSocket cls env call method socket before = some after) :
    Leads cls before after := by
  have shown : Leads cls before (before.record (.called call socket)) := record rfl before
  exact shown.trans ((allows cls).callSocket (fun _ _ _ => of_same rfl rfl rfl) execution)

theorem deleteFd (mux : IoMultiplexing τ) (fd : Int) (engine : Engine σ τ) :
    Leads cls engine (deleteFd mux fd engine).2 :=
  (of_same rfl rfl rfl : Leads cls engine { engine with io := (mux.deleteFd fd engine.io).2 }).trans
    (record rfl _)

theorem pervades (cls : SocketClass σ ι) (mux : IoMultiplexing τ) (env : Environment ι) :
    Pervades cls mux env (Leads cls : Engine σ τ → Engine σ τ → Prop) where
  refl := refl
  trans _ _ _ := trans
  interrupt _ _ := interrupt
  interruptLocked _ _ := (allows cls).interruptLocked
  deleteFd := deleteFd mux
  dispatch _ _ := of_same rfl rfl rfl
  fdCheck _ _ := of_same rfl rfl rfl
  connect _ _ _ _ := callSocket
  disconnect _ _ _ _ := callSocket
  write _ _ _ _ := callSocket
  read _ _ _ _ := callSocket
  sleep _ := of_same rfl rfl rfl
  lock := record rfl
  unlock := record rfl
  erase fd engine := of_happens (.erase fd engine)
  drain _ _ := of_same rfl rfl rfl
  swap engine := of_happens (.swap engine)
  close _ _ := of_same rfl rfl rfl

theorem perform {call : ThreadCall} (execution : call.perform cls mux env before = some after) :
    Leads cls before after := by
  cases call with
  | beforeStop wake =>
      cases execution
      exact of_same rfl rfl rfl
  | call call =>
      cases call with
      | add caller socket wake => exact (allows cls).act caller (.add socket wake) _ _ execution
      | query caller fd => exact (allows cls).act caller (.query fd) _ _ execution
      | afterThread => exact (pervades cls mux env).afterThread execution
      | readThread =>
          have round : (Engine.readThread cls mux env before).map Prod.snd = some after := execution
          rw [Option.map_eq_some_iff] at round
          obtain ⟨⟨ret, final⟩, finished, rfl⟩ := round
          exact (pervades cls mux env).readThread finished

/-- Every run of calls is a course of such happenings. -/
theorem run {calls : List ThreadCall}
    (execution : PartialRun.run (ThreadCall.perform cls mux env) calls before = some after) :
    Leads cls before after :=
  PartialRun.invariant (Leads cls before) (fun _ _ _ led step => led.trans (perform step))
    execution (refl before)

end Leads

/-! ## The books -/

/-- The entry that `Add` makes, if the happening is one. -/
def Happening.entered (fd : Nat) : Happening → List (Nat × SocketPtr)
  | .act _ (.add socket _) => [(fd + 1, socket)]
  | .act _ (.query _) | .act _ (.call _ _) | .erase _ | .swap | .beside => []

theorem Happening.entered_cases (happening : Happening) (fd : Nat) :
    happening.entered fd = [] ∨ ∃ socket, happening.entered fd = [(fd + 1, socket)] := by
  cases happening with
  | act thread action =>
      cases action with
      | add socket wake => exact Or.inr ⟨socket, rfl⟩
      | query fd => exact Or.inl rfl
      | call socket call => exact Or.inl rfl
  | _ => exact Or.inl rfl

/-- What a happening does to the counter, to the entries that came and to those that are there. -/
structure Books (happening : Happening) (before after : Engine σ τ) : Prop where
  fd_eq : after.fd = before.fd + (happening.entered before.fd).length
  admitted_eq : admitted after.trace = admitted before.trace ++ happening.entered before.fd
  entries_iff : ∀ entry, entry ∈ after.sockets.entries ↔
    entry ∈ before.sockets.entries ∧ ¬happening.Removes entry.1 ∨
      entry ∈ happening.entered before.fd

theorem books_of_same {happening : Happening} (silent : happening.entered before.fd = [])
    (keeps : ∀ fd, ¬happening.Removes fd) (sockets_eq : after.sockets = before.sockets)
    (fd_eq : after.fd = before.fd) (admitted_eq : admitted after.trace = admitted before.trace) :
    Books happening before after := by
  refine ⟨by rw [silent, fd_eq]; rfl, by rw [silent, admitted_eq, List.append_nil], ?_⟩
  intro entry
  rw [silent, sockets_eq]
  exact ⟨fun mem => Or.inl ⟨mem, keeps entry.1⟩,
    fun mem => (mem.resolve_right List.not_mem_nil).1⟩

/-- The books of `Add`. -/
theorem books_add (thread : ThreadId) (socket : SocketPtr) (wake : WriteResult)
    (engine : Engine σ τ) :
    Books (.act thread (.add socket wake)) engine (engine.add thread socket wake).2 := by
  refine ⟨rfl, ?_, ?_⟩
  · have trace_eq : (engine.add thread socket wake).2.trace =
        engine.trace ++ [.lock thread, .added (engine.fd + 1) socket, .unlock thread] := by
      simp [add, insertNext, lock, unlock, record]
    rw [trace_eq, admitted_append]
    rfl
  · intro entry
    have entries_eq : (engine.add thread socket wake).2.sockets.entries =
        engine.sockets.entries ++ [(engine.fd + 1, socket)] :=
      OrderedMap.entries_insert_of_lt
        (fun entry mem => Nat.lt_succ_of_le (engine.keys_le entry mem)) socket
    rw [entries_eq, List.mem_append]
    exact or_congr_left ⟨fun mem => ⟨mem, id⟩, And.left⟩

theorem books {happening : Happening} (step : Happens cls happening before after) :
    Books happening before after := by
  cases step with
  | @act thread action _ _ acted =>
      cases action with
      | add socket wake =>
          cases acted
          exact books_add thread socket wake before
      | query fd =>
          cases acted
          refine books_of_same rfl (fun _ => id) ?_ ?_ ?_
          · rw [snd_query]
            rfl
          · rw [snd_query]
            rfl
          · rw [snd_query]
            simp [lock, unlock, record, admitted, admittedEntry]
      | call socket call =>
          rw [Engine.act, Option.map_eq_some_iff] at acted
          obtain ⟨next, -, rfl⟩ := acted
          exact books_of_same rfl (fun _ => id) rfl rfl rfl
  | erase fd =>
      refine ⟨rfl, (List.append_nil _).symm, ?_⟩
      intro entry
      rw [show (before.eraseFd fd).sockets.entries = (before.sockets.erase fd).entries from rfl,
        OrderedMap.mem_entries_erase_iff]
      exact ⟨fun mem => Or.inl (mem.imp_right Ne.symm),
        fun mem => (mem.resolve_right List.not_mem_nil).imp_right Ne.symm⟩
  | swap =>
      refine ⟨rfl, ?_, ?_⟩
      · simp [swapOut, lock, unlock, record, admitted, admittedEntry, Happening.entered]
      · intro entry
        exact ⟨fun mem => absurd mem List.not_mem_nil,
          fun mem => ((mem.resolve_right List.not_mem_nil).2 trivial).elim⟩
  | beside sockets_eq fd_eq admitted_eq =>
      exact books_of_same rfl (fun _ => id) sockets_eq fd_eq admitted_eq

/-- The numbers that came are 1, 2, ... up to the counter, and what is there came once. -/
structure Issued (engine : Engine σ τ) : Prop where
  numbers : (admitted engine.trace).map Prod.fst = List.range' 1 engine.fd
  genuine : ∀ entry ∈ engine.sockets.entries, entry ∈ admitted engine.trace

namespace Issued

theorem construct (io : τ) (heap : SocketPtr → Socket σ) :
    Issued (construct io heap : Engine σ τ) := ⟨rfl, nofun⟩

theorem happens {happening : Happening} (issued : before.Issued)
    (step : Happens cls happening before after) : after.Issued := by
  obtain ⟨fd_eq, admitted_eq, entries_iff⟩ := books step
  constructor
  · rw [admitted_eq, fd_eq, List.map_append, issued.numbers]
    rcases happening.entered_cases before.fd with silent | ⟨socket, new⟩
    · rw [silent]
      exact List.append_nil _
    · rw [new, List.length_singleton, List.range'_1_concat, Nat.add_comm 1]
      rfl
  · intro entry mem
    rw [admitted_eq, List.mem_append]
    rcases (entries_iff entry).mp mem with ⟨old, -⟩ | new
    · exact Or.inl (issued.genuine entry old)
    · exact Or.inr new

theorem course {happenings : List Happening} (issued : before.Issued)
    (reached : Course cls happenings before after) : after.Issued := by
  induction reached with
  | nil => exact issued
  | cons step _ ih => exact ih (issued.happens step)

/-- A number that came is at most the counter. -/
theorem le_fd {engine : Engine σ τ} {entry : Nat × SocketPtr} (issued : engine.Issued)
    (mem : entry ∈ admitted engine.trace) : 0 < entry.1 ∧ entry.1 ≤ engine.fd := by
  have listed : entry.1 ∈ List.range' 1 engine.fd :=
    issued.numbers ▸ List.mem_map_of_mem mem
  rw [List.mem_range'_1] at listed
  omega

end Issued

/-! ## Queries -/

theorem fst_query (thread : ThreadId) (fd : Nat) (engine : Engine σ τ) :
    (engine.query thread fd).1 = engine.sockets.find fd := by
  rw [query]
  split
  · rename_i absent
    exact absent.symm
  · rename_i socket present
    exact present.symm

theorem query_eq_some_iff {thread : ThreadId} {fd : Nat} {socket : SocketPtr}
    {engine : Engine σ τ} :
    (engine.query thread fd).1 = some socket ↔ (fd, socket) ∈ engine.sockets.entries := by
  rw [fst_query]
  exact OrderedMap.find_eq_some_iff

theorem query_eq_none_iff {thread : ThreadId} {fd : Nat} {engine : Engine σ τ} :
    (engine.query thread fd).1 = none ↔ ∀ socket, (fd, socket) ∉ engine.sockets.entries := by
  rw [fst_query]
  exact OrderedMap.find_eq_none_iff

/-- An entry stays until its number is taken out. -/
theorem Course.keeps_entry {happenings : List Happening} {entry : Nat × SocketPtr}
    (course : Course cls happenings before after)
    (stays : ∀ happening ∈ happenings, ¬happening.Removes entry.1)
    (mem : entry ∈ before.sockets.entries) : entry ∈ after.sockets.entries := by
  induction course with
  | nil => exact mem
  | cons step _ ih =>
      obtain ⟨first, rest⟩ := List.forall_mem_cons.mp stays
      exact ih rest (((books step).entries_iff entry).mpr (Or.inl ⟨mem, first⟩))

/-- A number that came and is not there does not come back. -/
theorem Course.keeps_absent {happenings : List Happening} {fd : Nat}
    (course : Course cls happenings before after) (old : fd ≤ before.fd)
    (absent : ∀ socket, (fd, socket) ∉ before.sockets.entries) :
    ∀ socket, (fd, socket) ∉ after.sockets.entries := by
  induction course with
  | nil => exact absent
  | @cons happening rest before middle after step _ ih =>
      obtain ⟨fd_eq, -, entries_iff⟩ := books step
      refine ih (by omega) ?_
      intro socket mem
      rcases (entries_iff (fd, socket)).mp mem with ⟨present, -⟩ | new
      · exact absent socket present
      · rcases happening.entered_cases before.fd with silent | ⟨other, entered⟩
        · rw [silent] at new
          cases new
        · rw [entered, List.mem_singleton, Prod.mk.injEq] at new
          omega

/-- What holds of the numbers in a state, and of the queries from it on. -/
structure UniqueNumbers (cls : SocketClass σ ι) (engine : Engine σ τ) : Prop where
  /-- The numbers that `Add` returned differ, and the counter did not leave 64 bits while there were
  fewer of them. -/
  distinct : ((admitted engine.trace).map Prod.fst).Nodup
  nonzero : ∀ entry ∈ admitted engine.trace, entry.1 ≠ 0
  fits : (admitted engine.trace).length < 2 ^ 64 → engine.fd < 2 ^ 64
  /-- What `Query` finds was added under this number. -/
  genuine : ∀ thread fd socket, (engine.query thread fd).1 = some socket →
    (fd, socket) ∈ admitted engine.trace
  /-- `Add` returns a number that was not returned before and under which the socket is found, -/
  added : ∀ thread socket wake,
    admitted (engine.add thread socket wake).2.trace =
        admitted engine.trace ++ [((engine.add thread socket wake).1, socket)] ∧
      ∀ asker, ((engine.add thread socket wake).2.query asker
        (engine.add thread socket wake).1).1 = some socket
  /-- until the engine takes it out; -/
  kept : ∀ thread fd socket, (engine.query thread fd).1 = some socket →
    ∀ happenings later, Course cls happenings engine later →
      (∀ happening ∈ happenings, ¬happening.Removes fd) →
        ∀ asker, (later.query asker fd).1 = some socket
  /-- and then it is never found again. -/
  gone : ∀ fd ∈ (admitted engine.trace).map Prod.fst, ∀ thread, (engine.query thread fd).1 = none →
    ∀ happenings later, Course cls happenings engine later →
      ∀ asker, (later.query asker fd).1 = none

theorem Issued.uniqueNumbers {engine : Engine σ τ} (issued : engine.Issued) :
    UniqueNumbers cls engine where
  distinct := by
    rw [issued.numbers]
    exact List.nodup_range'
  nonzero entry mem := Nat.ne_of_gt (issued.le_fd mem).1
  fits few := by
    have length_eq := congrArg List.length issued.numbers
    rw [List.length_map, List.length_range'] at length_eq
    omega
  genuine thread fd socket found := issued.genuine _ (query_eq_some_iff.mp found)
  added thread socket wake := by
    have book := books_add thread socket wake engine
    refine ⟨book.admitted_eq, fun asker => ?_⟩
    rw [query_eq_some_iff]
    exact (book.entries_iff _).mpr (Or.inr (List.mem_singleton.mpr rfl))
  kept thread fd socket found happenings later course stays asker :=
    query_eq_some_iff.mpr (course.keeps_entry stays (query_eq_some_iff.mp found))
  gone fd mem thread lost happenings later course asker := by
    obtain ⟨entry, listed, rfl⟩ := List.mem_map.mp mem
    exact query_eq_none_iff.mpr
      (course.keeps_absent (issued.le_fd listed).2 (query_eq_none_iff.mp lost))

/-- In every state that a run of calls passes the numbers are unique.  The states it passes are
those of a course, which may be broken off at any happening. -/
theorem numbers_unique (cls : SocketClass σ ι) (mux : IoMultiplexing τ) (env : Environment ι)
    (io : τ) (heap : SocketPtr → Socket σ) :
    (∀ happenings engine, Course cls happenings (construct io heap) engine →
        UniqueNumbers cls engine) ∧
      ∀ calls engine, PartialRun.run (ThreadCall.perform cls mux env) calls (construct io heap) =
        some engine → ∃ happenings, Course cls happenings (construct io heap) engine :=
  ⟨fun _ _ course => ((Issued.construct io heap).course course).uniqueNumbers,
    fun _ _ execution => Leads.run execution⟩

/-- One of the sockets is closed. -/
def closedThird (socket : SocketPtr) : Socket (Transmission Unit) :=
  if socket = 3 then (Transmission.construct ()).close else Transmission.construct ()

/-- A round takes the closed socket out.  Its number finds nothing after the next `Add`, either,
which returns a new number. -/
theorem numbers_unique_closedThird :
    ∃ engine, PartialRun.run (ThreadCall.perform (Transmission.socketClass SocketHandler.sink)
        idleMux alone) [.call (.add .other 3 (.accepts 1)), .call (.add .other 5 (.accepts 1)),
          .call .readThread, .call (.query .other 1)] (construct () closedThird) = some engine ∧
      (engine.query .other 1).1 = none ∧ (engine.query .other 2).1 = some 5 ∧
      ∀ again, again = engine.add .other 3 (.accepts 1) →
        (again.2.query .other 1).1 = none ∧ (again.2.query .other 2).1 = some 5 ∧
          (again.2.query .other again.1).1 = some 3 ∧ again.1 ≠ 1 ∧ again.1 ≠ 2 := by
  obtain ⟨unique, leads⟩ := numbers_unique (Transmission.socketClass SocketHandler.sink) idleMux
    alone () closedThird
  obtain ⟨engine, execution, shown⟩ : ∃ engine,
      PartialRun.run (ThreadCall.perform (Transmission.socketClass SocketHandler.sink) idleMux
        alone) [.call (.add .other 3 (.accepts 1)), .call (.add .other 5 (.accepts 1)),
          .call .readThread, .call (.query .other 1)] (construct () closedThird) = some engine ∧
      (engine.query .other 1).1 = none ∧ (engine.query .other 2).1 = some 5 ∧
        admitted engine.trace = [(1, 3), (2, 5)] := ⟨_, rfl, rfl, rfl, rfl⟩
  obtain ⟨lost, found, entered⟩ := shown
  obtain ⟨happenings, course⟩ := leads _ engine execution
  have here := unique happenings engine course
  refine ⟨engine, execution, lost, found, ?_⟩
  rintro again rfl
  have step : Course (Transmission.socketClass SocketHandler.sink)
      [.act .other (.add 3 (.accepts 1))] engine (engine.add .other 3 (.accepts 1)).2 :=
    .cons (.act rfl) (.nil _)
  have stays : ∀ happening ∈ [Happening.act .other (.add 3 (.accepts 1))],
      ¬happening.Removes 2 := by
    intro happening mem
    rw [List.mem_singleton.mp mem]
    exact id
  obtain ⟨admitted_eq, finds⟩ := here.added .other 3 (.accepts 1)
  have later := (unique _ _ (course.append step)).distinct
  rw [admitted_eq, entered] at later
  have differs : (engine.add .other 3 (.accepts 1)).1 ≠ 1 ∧
      (engine.add .other 3 (.accepts 1)).1 ≠ 2 := by
    simpa [eq_comm, and_comm] using later
  have number : 1 ∈ (admitted engine.trace).map Prod.fst := by
    rw [entered]
    exact List.mem_cons_self
  exact ⟨here.gone 1 number .other lost _ _ step .other,
    here.kept .other 2 5 found _ _ step stays .other, finds .other, differs⟩

end Engine
end NetworkBase
