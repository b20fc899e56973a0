import NetworkBase.Engine.SocketPair
import NetworkBase.Library.OrderedMap
import NetworkBase.Library.PartialRun
import NetworkBase.Transport.SocketHandler

/-!
# The engine

The worker thread of `Engine` and what other threads may do meanwhile.  The methods of the worker
are functions of an environment, which says at each point of time what other threads did up to
this point, what the kernel answers, and what else the callbacks of a socket did.  As the
environment is arbitrary, every interleaving is covered.  A method is undefined where a method of a
socket is.
-/

namespace NetworkBase

/-- `IoMultiplexing`, over a state of its own.  As the state is arbitrary, so are the results. -/
structure IoMultiplexing (τ : Type) where
  addFd : Int → Bool → Bool → τ → Int × τ
  deleteFd : Int → τ → Int × τ
  dispatch : Bool → Nat → τ → Int × τ
  sleep : Nat → τ → Int × τ
  /-- The result with the values of `read_able` and `write_able`. -/
  fdCheck : Int → τ → (Int × Bool × Bool) × τ

/-- A socket object. -/
abbrev SocketPtr := Nat

/-- `SOCKET_MAP`. -/
abbrev SocketMap := OrderedMap Nat SocketPtr

/-- Who takes the mutex. -/
inductive ThreadId
  | worker
  | other
  deriving DecidableEq, Repr

/-- The methods of a socket that may reach its handler. -/
inductive RealCall
  | connect
  | disconnect
  | read
  | write
  deriving DecidableEq, Repr

/-- What the engine does. -/
inductive EngineEvent
  | lock (thread : ThreadId)
  | unlock (thread : ThreadId)
  /-- A socket entered `sockets_` under this number. -/
  | added (fd : Nat) (socket : SocketPtr)
  /-- `afterThread` took all sockets out of `sockets_`. -/
  | swapped
  | called (call : RealCall) (socket : SocketPtr)
  | addFd (fd : Int) (result : Int)
  | deleteFd (fd : Int) (result : Int)
  deriving DecidableEq, Repr

/-- A call from outside the worker, or from a callback. -/
inductive UserAction
  | add (socket : SocketPtr) (wake : WriteResult)
  | query (fd : Nat)
  | call (socket : SocketPtr) (call : PublicCall)
  deriving DecidableEq, Repr

/-- The action does not take the mutex of the engine. -/
def UserAction.lockFree : UserAction → Bool
  | .call _ _ => true
  | _ => false

/-- Everything the engine does not decide itself, by the time at which it is asked. -/
structure Environment (ι : Type) where
  /-- What other threads did up to this point. -/
  others : Nat → List UserAction
  /-- What the callbacks of a socket did besides the calls on their own socket. -/
  callbacks : Nat → List UserAction
  connect : Nat → ConnectKernel
  soError : Nat → SoError
  write : Nat → ι
  read : Nat → List (ReadResult × ι)
  drain : Nat → List PairRead

/-- `Engine`, with the socket objects, the time and the trace. -/
structure Engine (σ τ : Type) where
  fd : Nat
  sockets : SocketMap
  /-- No number in `sockets_` is beyond the counter. -/
  keys_le : ∀ entry ∈ sockets.entries, entry.1 ≤ fd
  io : τ
  pair : SocketPair
  heap : SocketPtr → Socket σ
  time : Nat
  trace : List EngineEvent

namespace Engine

variable {σ ι τ : Type}

/-- Length of a time slice. -/
def kLoopTimeIntervalMs : Nat := 30

/-- How long a worker without sockets sleeps. -/
def kMaxSleepMs : Nat := 60000

/-- The constructor, among the sockets that exist or will exist. -/
def construct (io : τ) (heap : SocketPtr → Socket σ) : Engine σ τ where
  fd := 0
  sockets := .empty
  keys_le _ mem := absurd mem List.not_mem_nil
  io
  pair := .construct
  heap
  time := 0
  trace := []

/-- Append to the trace. -/
def record (event : EngineEvent) (engine : Engine σ τ) : Engine σ τ :=
  { engine with trace := engine.trace ++ [event] }

/-- `mutex_.lock()`, which never blocks. -/
def lock (thread : ThreadId) (engine : Engine σ τ) : Engine σ τ := engine.record (.lock thread)

/-- `mutex_.unlock()`. -/
def unlock (thread : ThreadId) (engine : Engine σ τ) : Engine σ τ := engine.record (.unlock thread)

/-- Change a socket object. -/
def store (socket : SocketPtr) (next : Socket σ) (engine : Engine σ τ) : Engine σ τ :=
  { engine with heap := fun other => if other = socket then next else engine.heap other }

/-- Time passes. -/
def tick (engine : Engine σ τ) : Engine σ τ := { engine with time := engine.time + 1 }

/-- Put a socket into `sockets_` under the next number. -/
def insertNext (socket : SocketPtr) (engine : Engine σ τ) : Engine σ τ :=
  { engine with
    fd := engine.fd + 1
    sockets := engine.sockets.insert (engine.fd + 1) socket
    keys_le := fun entry mem => by
      rcases OrderedMap.mem_entries_of_mem_insert mem with rfl | old
      · exact Nat.le_refl _
      · exact Nat.le_succ_of_le (engine.keys_le entry old) }

/-- Take a number out of `sockets_`. -/
def eraseFd (fd : Nat) (engine : Engine σ τ) : Engine σ τ :=
  { engine with
    sockets := engine.sockets.erase fd
    keys_le := fun entry mem => engine.keys_le entry (List.mem_of_mem_filter mem) }

/-- `Add`. -/
def add (thread : ThreadId) (socket : SocketPtr) (wake : WriteResult) (engine : Engine σ τ) :
    Nat × Engine σ τ :=
  let engine := (engine.lock thread).insertNext socket
  let fd := engine.fd
  let engine := (engine.record (.added fd socket)).unlock thread
  (fd, { engine with pair := (engine.pair.send wake [116]).2 })

/-- `Query`. -/
def query (thread : ThreadId) (fd : Nat) (engine : Engine σ τ) : Option SocketPtr × Engine σ τ :=
  let engine := engine.lock thread
  match engine.sockets.find fd with
  | none => (none, engine.unlock thread)
  | some socket => (some socket, engine.unlock thread)

/-- One action of a thread. -/
def act (cls : SocketClass σ ι) (thread : ThreadId) :
    UserAction → Engine σ τ → Option (Engine σ τ)
  | .add socket wake, engine => some (engine.add thread socket wake).2
  | .query fd, engine => some (engine.query thread fd).2
  | .call socket call, engine =>
      (Socket.callBack cls.send [call] (engine.heap socket)).map fun next =>
        engine.store socket next

/-- Several actions of a thread. -/
def acts (cls : SocketClass σ ι) (thread : ThreadId) :
    List UserAction → Engine σ τ → Option (Engine σ τ) :=
  PartialRun.run (act cls thread)

section Worker

variable (cls : SocketClass σ ι) (mux : IoMultiplexing τ) (env : Environment ι)

/-- Other threads act. -/
def interrupt (engine : Engine σ τ) : Option (Engine σ τ) :=
  (acts cls .other (env.others engine.time) engine).map tick

/-- Other threads act while the worker holds the mutex. -/
def interruptLocked (engine : Engine σ τ) : Option (Engine σ τ) :=
  (acts cls .other ((env.others engine.time).filter UserAction.lockFree) engine).map tick

/-- A call into a socket, with what its callbacks do. -/
def callSocket (call : RealCall) (method : Socket σ → Option (Socket σ)) (socket : SocketPtr)
    (engine : Engine σ τ) : Option (Engine σ τ) := do
  let engine := engine.record (.called call socket)
  let next ← method (engine.heap socket)
  let engine ← acts cls .worker (env.callbacks engine.time) (engine.store socket next)
  some engine.tick

/-- `RealConnect` of a socket. -/
def realConnect (socket : SocketPtr) (engine : Engine σ τ) : Option (Engine σ τ) :=
  callSocket cls env .connect (fun object => some (object.realConnect (env.connect engine.time)))
    socket engine

/-- `RealDisconnect` of a socket. -/
def realDisconnect (socket : SocketPtr) (engine : Engine σ τ) : Option (Engine σ τ) :=
  callSocket cls env .disconnect (Socket.realDisconnect cls) socket engine

/-- `RealRead` of a socket. -/
def realRead (socket : SocketPtr) (engine : Engine σ τ) : Option (Engine σ τ) :=
  callSocket cls env .read (Socket.realRead cls (env.read engine.time)) socket engine

/-- `RealWrite` of a socket. -/
def realWrite (socket : SocketPtr) (engine : Engine σ τ) : Option (Engine σ τ) :=
  callSocket cls env .write
    (Socket.realWrite cls (env.soError engine.time) (env.write engine.time)) socket engine

/-- `io_->Sleep`. -/
def sleep (engine : Engine σ τ) : Engine σ τ :=
  { engine with io := (mux.sleep kLoopTimeIntervalMs engine.io).2 }

/-- `io_->AddFd` for reading and writing. -/
def addFd (fd : Int) (engine : Engine σ τ) : Int × Engine σ τ :=
  let (result, io) := mux.addFd fd true true engine.io
  (result, { engine with io }.record (.addFd fd result))

/-- `io_->DeleteFd`. -/
def deleteFd (fd : Int) (engine : Engine σ τ) : Int × Engine σ τ :=
  let (result, io) := mux.deleteFd fd engine.io
  (result, { engine with io }.record (.deleteFd fd result))

/-- `io_->Dispatch`. -/
def dispatch (timeOutMs : Nat) (engine : Engine σ τ) : Int × Engine σ τ :=
  let (result, io) := mux.dispatch false timeOutMs engine.io
  (result, { engine with io })

/-- `io_->FdCheck`. -/
def fdCheck (fd : Int) (engine : Engine σ τ) : (Int × Bool × Bool) × Engine σ τ :=
  let (result, io) := mux.fdCheck fd engine.io
  (result, { engine with io })

/-! ## `readThread` -/

/-- The part of `readThread` after an empty `sockets_` was found. -/
def waitForSockets (engine : Engine σ τ) : Option (Int × Engine σ τ) := do
  let engine ← interrupt cls env engine
  let (ret, engine) := dispatch mux kMaxSleepMs engine
  let engine ← interrupt cls env engine
  if ret < 0 then
    some (-1, engine)
  else if ret = 0 then
    some (0, engine)
  else
    let ((checked, read, _), engine) := fdCheck mux engine.pair.getReadFd engine
    if checked < 0 then
      some (-1, engine)
    else if read then
      some (0, { engine with pair := engine.pair.readable (env.drain engine.time) })
    else
      some (0, engine)

/-- The maps `readThread` sorts the sockets into. -/
structure Scan where
  startConnect : SocketMap
  connecting : SocketMap
  connected : SocketMap
  disconnect : SocketMap

/-- The statuses `readThread` asks for, in its order. -/
def statusTests : List Status := [.init, .startConnect, .connecting, .connected, .disconnected]

/-- Ask a socket for its status once for each test, up to the first that agrees. -/
def firstMatch (socket : SocketPtr) :
    List Status → Engine σ τ → Option (Option Status × Engine σ τ)
  | [], engine => some (none, engine)
  | status :: tests, engine => do
      let engine ← interruptLocked cls env engine
      if (engine.heap socket).status = status then some (some status, engine)
      else firstMatch socket tests engine

/-- The scan of `sockets_`; its value says whether every socket matched a status.  A connecting
socket is put among those that start to connect. -/
def scan : List (Nat × SocketPtr) → Scan → Engine σ τ → Option (Bool × Scan × Engine σ τ)
  | [], found, engine => some (true, found, engine)
  | (fd, socket) :: rest, found, engine => do
      let (status, engine) ← firstMatch cls env socket statusTests engine
      match status with
      | some .init => scan rest found engine
      | some .startConnect =>
          scan rest { found with startConnect := found.startConnect.insert fd socket } engine
      | some .connecting =>
          scan rest { found with startConnect := found.startConnect.insert fd socket } engine
      | some .connected =>
          scan rest { found with connected := found.connected.insert fd socket } engine
      | some .disconnected =>
          scan rest { found with disconnect := found.disconnect.insert fd socket }
            (engine.eraseFd fd)
      | none => some (false, found, engine)

/-- The loop over the disconnected sockets.  The comparison stands inside the argument of
`DeleteFd`. -/
def closeInvalid : List (Nat × SocketPtr) → Engine σ τ → Option (Engine σ τ)
  | [], engine => some engine
  | (_, socket) :: rest, engine => do
      let engine ← interrupt cls env engine
      let (_, engine) := deleteFd mux (if (engine.heap socket).fd < 0 then 1 else 0) engine
      let engine ← realDisconnect cls env socket engine
      closeInvalid rest engine

/-- The loop over the sockets that start to connect. -/
def startConnects : List (Nat × SocketPtr) → Engine σ τ → Option (Engine σ τ)
  | [], engine => some engine
  | (_, socket) :: rest, engine => do
      let engine ← interrupt cls env engine
      let engine ← realConnect cls env socket engine
      startConnects rest engine

/-- The loop over the connecting sockets, which joins them to the connected ones. -/
def checkConnecting : List (Nat × SocketPtr) → SocketMap → Engine σ τ →
    Option (SocketMap × Engine σ τ)
  | [], connected, engine => some (connected, engine)
  | (fd, socket) :: rest, connected, engine => do
      let engine ← interrupt cls env engine
      if (engine.heap socket).realConnectCheck then
        checkConnecting rest (connected.insert fd socket) engine
      else
        let (ret, engine) := addFd mux (engine.heap socket).fd engine
        if ret < 0 then do
          let engine ← realDisconnect cls env socket engine
          checkConnecting rest (connected.insert fd socket) engine
        else
          checkConnecting rest (connected.insert fd socket) engine

/-- `if (ready)` before a call into a socket. -/
def whenReady (ready : Bool) (call : Engine σ τ → Option (Engine σ τ)) (engine : Engine σ τ) :
    Option (Engine σ τ) :=
  if ready then call engine else some engine

/-- The loop over the sockets that are ready to write or read. -/
def serveReady : List (Nat × SocketPtr) → Engine σ τ → Option (Int × Engine σ τ)
  | [], engine => some (0, engine)
  | (_, socket) :: rest, engine => do
      let engine ← interrupt cls env engine
      let ((checked, read, write), engine) := fdCheck mux (engine.heap socket).fd engine
      if checked < 0 then
        some (-1, engine)
      else do
        let engine ← whenReady write (realWrite cls env socket) engine
        let engine ← interrupt cls env engine
        let engine ← whenReady read (realRead cls env socket) engine
        serveReady rest engine

/-- The part of `readThread` from its dispatch on. -/
def dispatchReady (connected : List (Nat × SocketPtr)) (engine : Engine σ τ) :
    Option (Int × Engine σ τ) :=
  if connected.isEmpty then
    some (0, engine)
  else
    let (ret, engine) := dispatch mux kLoopTimeIntervalMs engine
    if ret < 0 then some (-1, engine)
    else if ret = 0 then some (0, engine)
    else serveReady cls mux env connected engine

/-- The part of `readThread` after the scan. -/
def serve (found : Scan) (engine : Engine σ τ) : Option (Int × Engine σ τ) := do
  let engine ← closeInvalid cls mux env found.disconnect.entries engine
  let engine ← startConnects cls env found.startConnect.entries engine
  let (connected, engine) ←
    checkConnecting cls mux env found.connecting.entries found.connected engine
  dispatchReady cls mux env connected.entries engine

/-- The part of `readThread` after a nonempty `sockets_` was found.  It locks once more. -/
def scanAndServe (engine : Engine σ τ) : Option (Int × Engine σ τ) := do
  let engine := engine.lock .worker
  let (matched, found, engine) ←
    scan cls env engine.sockets.entries ⟨.empty, .empty, .empty, .empty⟩ engine
  let engine := engine.unlock .worker
  if matched then serve cls mux env found engine else some (-1, engine)

/-- The engine when `readThread` has slept and taken the mutex. -/
def wake (engine : Engine σ τ) : Option (Engine σ τ) := do
  let engine ← interrupt cls env (sleep mux engine)
  some (engine.lock .worker)

/-- `readThread`. -/
def readThread (engine : Engine σ τ) : Option (Int × Engine σ τ) := do
  let engine ← wake cls mux env engine
  if engine.sockets.entries.isEmpty then
    waitForSockets cls mux env (engine.unlock .worker)
  else
    scanAndServe cls mux env engine

/-! ## `afterThread` and the thread -/

/-- The loop of `afterThread`. -/
def closeAll : List (Nat × SocketPtr) → Engine σ τ → Option (Engine σ τ)
  | [], engine => some engine
  | (_, socket) :: rest, engine => do
      let engine ← interrupt cls env engine
      let engine ← interrupt cls env (engine.store socket (engine.heap socket).close)
      let engine ← realDisconnect cls env socket engine
      closeAll rest engine

/-- Take all sockets out of `sockets_`. -/
def swapOut (engine : Engine σ τ) : SocketMap × Engine σ τ :=
  let engine := engine.lock .worker
  let swapped :=
    { engine with sockets := .empty, keys_le := fun _ mem => absurd mem List.not_mem_nil }
  (engine.sockets, (swapped.record .swapped).unlock .worker)

/-- `afterThread`. -/
def afterThread (engine : Engine σ τ) : Option (Engine σ τ) := do
  let engine ← interrupt cls env engine
  let (disconnectSockets, engine) := engine.swapOut
  closeAll cls env disconnectSockets.entries engine

/-- The loop of the thread, for at most this many rounds. -/
def rounds : Nat → Engine σ τ → Option (Engine σ τ)
  | 0, engine => some engine
  | count + 1, engine => do
      let (ret, engine) ← readThread cls mux env engine
      if ret < 0 then some engine else rounds count engine

/-- A whole life of the worker: rounds, until it is stopped or a round fails, and `afterThread`. -/
def thread (count : Nat) (engine : Engine σ τ) : Option (Engine σ τ) := do
  let engine ← rounds cls mux env count engine
  afterThread cls env engine

end Worker

end Engine
end NetworkBase
