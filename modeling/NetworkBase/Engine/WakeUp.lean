import NetworkBase.Engine.Disconnects
import NetworkBase.Engine.LockDiscipline

/-!
# Waking the worker

`Add` and `beforeStop` send a byte over the pair so that a worker that waits in `Dispatch` comes
back.  Nobody starts the pair and nobody registers its descriptor, so whatever the threads do, no
byte is ever accepted.
-/

namespace NetworkBase
namespace SocketPair

/-- The pair is closed, and no byte was ever written into it. -/
structure Mute (pair : SocketPair) : Prop where
  close : pair.close = true
  calls : ∀ fd buf result, .write fd buf result ∉ pair.calls

theorem mute_construct : Mute construct := ⟨rfl, fun _ _ _ => List.not_mem_nil⟩

namespace Mute

variable {pair : SocketPair}

theorem send_eq (mute : Mute pair) (kernel : WriteResult) (buf : List UInt8) :
    pair.send kernel buf = (-1, pair) := by rw [send, if_pos mute.close]

theorem stop_eq (mute : Mute pair) : pair.stop = pair := by rw [stop, if_pos mute.close]

/-- `Readable` reads, on whatever descriptor, but it writes nothing. -/
theorem record_read (mute : Mute pair) (fd : Int) (result : PairRead) :
    Mute (pair.record (.read fd result)) := by
  refine ⟨mute.close, ?_⟩
  intro written buf value mem
  rcases List.mem_append.mp mem with old | new
  · exact mute.calls written buf value old
  · exact absurd (List.mem_singleton.mp new) (by simp)

theorem readable (mute : Mute pair) (reads : List PairRead) : Mute (pair.readable reads) := by
  induction reads generalizing pair with
  | nil => exact mute.record_read _ _
  | cons read reads ih =>
      cases read with
      | failed errno =>
          have shown := mute.record_read pair.wakeupIn (.failed errno)
          simp only [SocketPair.readable, shown.stop_eq]
          split
          · exact shown
          · exact shown
      | got len =>
          have shown := mute.record_read pair.wakeupIn (.got len)
          simp only [SocketPair.readable, shown.stop_eq]
          split
          · exact shown
          split
          · exact shown
          split
          · exact ih shown
          · exact shown

end Mute
end SocketPair

namespace Engine

variable {σ ι τ : Type} {cls : SocketClass σ ι} {mux : IoMultiplexing τ} {env : Environment ι}

/-- `beforeStop`. -/
def beforeStop (wake : WriteResult) (engine : Engine σ τ) : Engine σ τ :=
  { engine with pair := (engine.pair.send wake [116]).2 }

/-- The next byte wakes the worker: the pair accepts it, and the descriptor from which it can be
read was registered. -/
structure WakesUp (engine : Engine σ τ) (wake : WriteResult) : Prop where
  accepted : 0 < (engine.pair.send wake [116]).1
  registered : ∃ result, .addFd engine.pair.getReadFd result ∈ engine.trace

/-- The pair stays mute, and no descriptor is registered. -/
structure Unwoken (before after : Engine σ τ) : Prop where
  pair : before.pair.Mute → after.pair.Mute
  trace : ∃ events, after.trace = before.trace ++ events ∧
    ∀ fd result, .addFd fd result ∉ events

namespace Unwoken

theorem of_same {before after : Engine σ τ} (pair_eq : after.pair = before.pair)
    (trace_eq : after.trace = before.trace) : Unwoken before after :=
  ⟨fun mute => by rw [pair_eq]; exact mute,
    [], trace_eq.trans (List.append_nil _).symm, fun _ _ => List.not_mem_nil⟩

theorem refl (engine : Engine σ τ) : Unwoken engine engine := of_same rfl rfl

theorem trans {before middle after : Engine σ τ} (first : Unwoken before middle)
    (second : Unwoken middle after) : Unwoken before after := by
  obtain ⟨early, early_eq, early_none⟩ := first.trace
  obtain ⟨late, late_eq, late_none⟩ := second.trace
  refine ⟨second.pair ∘ first.pair, early ++ late, ?_, ?_⟩
  · rw [late_eq, early_eq, List.append_assoc]
  · intro fd result mem
    exact (List.mem_append.mp mem).elim (early_none fd result) (late_none fd result)

theorem record {event : EngineEvent} (other : ∀ fd result, event ≠ .addFd fd result)
    (engine : Engine σ τ) : Unwoken engine (engine.record event) := by
  refine ⟨id, [event], rfl, ?_⟩
  intro fd result mem
  exact other fd result (List.mem_singleton.mp mem).symm

theorem lock (thread : ThreadId) (engine : Engine σ τ) : Unwoken engine (engine.lock thread) :=
  record (by simp) engine

theorem unlock (thread : ThreadId) (engine : Engine σ τ) : Unwoken engine (engine.unlock thread) :=
  record (by simp) engine

theorem beforeStop (wake : WriteResult) (engine : Engine σ τ) :
    Unwoken engine (engine.beforeStop wake) := by
  refine ⟨?_, [], (List.append_nil _).symm, fun _ _ => List.not_mem_nil⟩
  intro mute
  rw [Engine.beforeStop, mute.send_eq]
  exact mute

theorem add (thread : ThreadId) (socket : SocketPtr) (wake : WriteResult) (engine : Engine σ τ) :
    Unwoken engine (engine.add thread socket wake).2 := by
  have inserted : Unwoken (engine.lock thread) ((engine.lock thread).insertNext socket) :=
    of_same rfl rfl
  have shown : Unwoken ((engine.lock thread).insertNext socket)
      (((engine.lock thread).insertNext socket).record (.added (engine.fd + 1) socket)) :=
    record (by simp) _
  exact (((lock thread engine).trans inserted).trans shown).trans
    ((unlock thread _).trans (beforeStop wake _))

theorem query (thread : ThreadId) (fd : Nat) (engine : Engine σ τ) :
    Unwoken engine (engine.query thread fd).2 := by
  rw [snd_query]
  exact (lock thread engine).trans (unlock thread _)

/-- Other threads and callbacks do not wake the worker. -/
theorem allows (cls : SocketClass σ ι) :
    Allows cls (Unwoken : Engine σ τ → Engine σ τ → Prop) where
  refl := refl
  trans _ _ _ := trans
  act thread action before after step := by
    cases action with
    | add socket wake =>
        cases step
        exact add thread socket wake before
    | query fd =>
        cases step
        exact query thread fd before
    | call socket call =>
        rw [act, Option.map_eq_some_iff] at step
        obtain ⟨object, -, rfl⟩ := step
        exact of_same rfl rfl
  tick _ := of_same rfl rfl

theorem interrupt {before after : Engine σ τ}
    (execution : interrupt cls env before = some after) : Unwoken before after :=
  (allows cls).interrupt execution

theorem callSocket {call : RealCall} {method : Socket σ → Option (Socket σ)} {socket : SocketPtr}
    {before after : Engine σ τ}
    (execution : callSocket cls env call method socket before = some after) :
    Unwoken before after := by
  have shown : Unwoken before (before.record (.called call socket)) := record (by simp) before
  exact shown.trans ((allows cls).callSocket (fun _ _ _ => of_same rfl rfl) execution)

theorem deleteFd (mux : IoMultiplexing τ) (fd : Int) (engine : Engine σ τ) :
    Unwoken engine (deleteFd mux fd engine).2 :=
  (of_same rfl rfl : Unwoken engine { engine with io := (mux.deleteFd fd engine.io).2 }).trans
    (record (by simp) _)

/-- The worker registers nothing and wakes nobody. -/
theorem pervades (cls : SocketClass σ ι) (mux : IoMultiplexing τ) (env : Environment ι) :
    Pervades cls mux env (Unwoken : Engine σ τ → Engine σ τ → Prop) where
  refl := refl
  trans _ _ _ := trans
  interrupt _ _ := interrupt
  interruptLocked _ _ := (allows cls).interruptLocked
  deleteFd := deleteFd mux
  dispatch _ _ := of_same rfl rfl
  fdCheck _ _ := of_same rfl rfl
  connect _ _ _ _ := callSocket
  disconnect _ _ _ _ := callSocket
  write _ _ _ _ := callSocket
  read _ _ _ _ := callSocket
  sleep _ := of_same rfl rfl
  lock := lock .worker
  unlock := unlock .worker
  erase _ _ := of_same rfl rfl
  drain reads _ := ⟨fun mute => mute.readable reads, [], (List.append_nil _).symm,
    fun _ _ => List.not_mem_nil⟩
  swap engine := ⟨id, [.lock .worker, .swapped, .unlock .worker],
    by simp [swapOut, Engine.lock, Engine.unlock, Engine.record], by simp⟩
  close _ _ := of_same rfl rfl

end Unwoken

/-- What the threads do with an engine. -/
inductive ThreadCall
  | call (call : EngineCall)
  | beforeStop (wake : WriteResult)

/-- One such call; a round of the worker contains what other threads do meanwhile. -/
def ThreadCall.perform (cls : SocketClass σ ι) (mux : IoMultiplexing τ) (env : Environment ι) :
    ThreadCall → Engine σ τ → Option (Engine σ τ)
  | .call entry, engine => entry.perform cls mux env engine
  | .beforeStop wake, engine => some (engine.beforeStop wake)

/-- A relation that holds over all the worker does and that `Add`, `Query` and `beforeStop`
keep. -/
theorem Pervades.perform {rel : Engine σ τ → Engine σ τ → Prop} {call : ThreadCall}
    {before after : Engine σ τ} (pervades : Pervades cls mux env rel)
    (acts : ∀ thread action before after, act cls thread action before = some after →
      rel before after)
    (stops : ∀ wake (engine : Engine σ τ), rel engine (engine.beforeStop wake))
    (execution : call.perform cls mux env before = some after) : rel before after := by
  cases call with
  | beforeStop wake =>
      cases execution
      exact stops wake before
  | call call =>
      cases call with
      | add caller socket wake => exact acts caller (.add socket wake) _ _ execution
      | query caller fd => exact acts caller (.query fd) _ _ execution
      | afterThread => exact pervades.afterThread execution
      | readThread =>
          have round : (Engine.readThread cls mux env before).map Prod.snd = some after := execution
          rw [Option.map_eq_some_iff] at round
          obtain ⟨⟨ret, final⟩, finished, rfl⟩ := round
          exact pervades.readThread finished

/-- Such a relation holds over every run. -/
theorem Pervades.run {rel : Engine σ τ → Engine σ τ → Prop} {calls : List ThreadCall}
    {before after : Engine σ τ} (pervades : Pervades cls mux env rel)
    (acts : ∀ thread action before after, act cls thread action before = some after →
      rel before after)
    (stops : ∀ wake (engine : Engine σ τ), rel engine (engine.beforeStop wake))
    (execution : PartialRun.run (ThreadCall.perform cls mux env) calls before = some after) :
    rel before after :=
  PartialRun.invariant (rel before)
    (fun _ _ _ held step => pervades.trans _ _ _ held (pervades.perform acts stops step))
    execution (pervades.refl before)

theorem unwoken_perform {call : ThreadCall} {before after : Engine σ τ}
    (execution : call.perform cls mux env before = some after) : Unwoken before after := by
  cases call with
  | beforeStop wake =>
      cases execution
      exact Unwoken.beforeStop wake before
  | call call =>
      cases call with
      | add caller socket wake =>
          cases execution
          exact Unwoken.add caller socket wake before
      | query caller fd =>
          cases execution
          exact Unwoken.query caller fd before
      | afterThread => exact (Unwoken.pervades cls mux env).afterThread execution
      | readThread =>
          have round : (Engine.readThread cls mux env before).map Prod.snd = some after := execution
          rw [Option.map_eq_some_iff] at round
          obtain ⟨⟨ret, final⟩, finished, rfl⟩ := round
          exact (Unwoken.pervades cls mux env).readThread finished

/-- In every reachable state, whatever `Add` and `beforeStop` calls came before and wherever they
fell into the rounds of the worker, no byte was written to wake the worker, no descriptor was
registered, and the next byte does not wake the worker either. -/
theorem never_wakesUp (cls : SocketClass σ ι) (mux : IoMultiplexing τ) (env : Environment ι)
    (io : τ) (heap : SocketPtr → Socket σ) (calls : List ThreadCall) (engine : Engine σ τ)
    (execution : PartialRun.run (ThreadCall.perform cls mux env) calls (construct io heap) =
      some engine) :
    (∀ fd buf result, .write fd buf result ∉ engine.pair.calls) ∧
      (∀ fd result, .addFd fd result ∉ engine.trace) ∧ ∀ wake, ¬engine.WakesUp wake := by
  have unwoken : Unwoken (construct io heap) engine :=
    PartialRun.invariant (Unwoken (construct io heap))
      (fun _ _ _ unwoken step => unwoken.trans (unwoken_perform step)) execution (.refl _)
  have mute : engine.pair.Mute := unwoken.pair SocketPair.mute_construct
  obtain ⟨events, trace_eq, unregistered⟩ := unwoken.trace
  refine ⟨mute.calls, ?_, ?_⟩
  · rw [trace_eq]
    exact unregistered
  rintro wake ⟨accepted, -⟩
  rw [mute.send_eq] at accepted
  exact (by decide : ¬(0 : Int) < -1) accepted

/-- Another thread adds a socket when the worker has found no socket and released the mutex. -/
def addWhileIdle : Environment WriteResult :=
  { alone with others := fun time => if time = 1 then [.add 3 (.accepts 1)] else [] }

/-- A round of the worker during which a socket is added. -/
def idleRound : List ThreadCall := [.call .readThread]

theorem never_wakesUp_idleRound :
    ∃ engine, PartialRun.run (ThreadCall.perform (Transmission.socketClass SocketHandler.sink)
        idleMux addWhileIdle) idleRound (construct () fun _ => Transmission.construct ()) =
          some engine ∧
      (∀ fd buf result, .write fd buf result ∉ engine.pair.calls) ∧
        (∀ fd result, .addFd fd result ∉ engine.trace) ∧ ∀ wake, ¬engine.WakesUp wake :=
  ⟨_, rfl, never_wakesUp (Transmission.socketClass SocketHandler.sink) idleMux addWhileIdle () _
    idleRound _ rfl⟩

/-- The socket is there, the kernel would have taken the byte, and the worker was not woken. -/
theorem added_without_wakeUp :
    ∃ engine, PartialRun.run (ThreadCall.perform (Transmission.socketClass SocketHandler.sink)
        idleMux addWhileIdle) idleRound (construct () fun _ => Transmission.construct ()) =
          some engine ∧
      .added 1 3 ∈ engine.trace ∧ engine.pair.calls = [] ∧ ¬engine.WakesUp (.accepts 1) := by
  refine ⟨_, rfl, by decide, rfl, ?_⟩
  rintro ⟨accepted, -⟩
  exact absurd accepted (by decide)

end Engine
end NetworkBase
