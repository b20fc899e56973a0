import Mathlib.Logic.Relation
import Mathlib.Tactic
import NetworkBase.Tool.AutoGrowBuffer
import NetworkBase.Transport.SocketAssistant

/-!
# The socket base class

`Socket σ` holds the members of the base class together with the members `σ` of a subclass and the
log of everything the socket let its kernel, its handler and its observers see.  A subclass is a
table of its virtual methods, which carries the proof that they reach the base class only through
its public methods: this is what `private` says in the source.  Answers of the kernel are
arguments of the methods that ask for them.
-/

namespace NetworkBase

/-- The stages of a connection. -/
inductive Status
  | init
  | startConnect
  | connecting
  | connected
  | disconnected
  deriving DecidableEq, Repr

/-- The value of the enumeration constant. -/
def Status.rank : Status → Nat
  | init => 0
  | startConnect => 1
  | connecting => 2
  | connected => 3
  | disconnected => 4

/-- Size of the read cache. -/
def kRecvCacheLen : Nat := 16384

/-- The bytes of one successful `read`, none at the end of the stream. -/
abbrev Chunk := { bytes : List UInt8 // bytes.length ≤ kRecvCacheLen }

/-- The answer of `read`. -/
inductive ReadResult
  | failed (errno : Errno)
  | got (chunk : Chunk)
  deriving DecidableEq

/-- An answer of `read` that brings no bytes. -/
def ReadResult.Barren : ReadResult → Prop
  | .failed _ => True
  | .got chunk => chunk.val = []

/-- The answer of `write`: an error, or the room for this many bytes. -/
inductive WriteResult
  | failed (errno : Errno)
  | accepts (room : Nat)
  deriving DecidableEq, Repr

/-- The value `write` returns for `len` bytes: it never accepts more than it is given. -/
def WriteResult.value (result : WriteResult) (len : Nat) : Int :=
  match result with
  | .failed _ => -1
  | .accepts room => (min room len : Nat)

theorem WriteResult.value_le (result : WriteResult) (len : Nat) : result.value len ≤ len := by
  cases result with
  | failed errno =>
      have nonneg := Int.natCast_nonneg len
      exact (by decide : (-1 : Int) ≤ 0).trans nonneg
  | accepts room => exact Int.ofNat_le.mpr (Nat.min_le_right room len)

/-- The kinds of socket `RealConnect` creates. -/
inductive SocketType
  | stream
  | dgram
  deriving DecidableEq, Repr

/-- The fields of `sockaddr_in` that are filled in. -/
structure SockAddrIn where
  sinAddr : UInt32
  sinPort : UInt16
  deriving DecidableEq, Repr

/-- `sizeof(struct sockaddr_in)`. -/
def sizeofSockAddrIn : Nat := 16

/-- The sum of two values of type `size_t`. -/
def sizeAdd (a b : Nat) : Nat := (a + b) % 2 ^ 64

/-- The difference of two values of type `size_t`. -/
def sizeSub (a b : Nat) : Nat := (a + (2 ^ 64 - b % 2 ^ 64)) % 2 ^ 64

theorem sizeAdd_of_lt {a b : Nat} (fits : a + b < 2 ^ 64) : sizeAdd a b = a + b :=
  Nat.mod_eq_of_lt fits

theorem sizeSub_of_le {a b : Nat} (le : b ≤ a) (fits : a < 2 ^ 64) : sizeSub a b = a - b := by
  rw [sizeSub, Nat.mod_eq_of_lt (le.trans_lt fits)]
  omega

/-- The answer of a call that only succeeds or fails. -/
inductive SysResult
  | ok
  | failed (errno : Errno)
  deriving DecidableEq, Repr

/-- The kernel calls of `RealConnect`. -/
structure ConnectKernel where
  socket : SocketType → Int
  fcntl : Fcntl
  /-- `connect` on a descriptor, with an address and the length of that address. -/
  connect : Int → SockAddrIn → Nat → SysResult

/-- What a socket lets others see. -/
inductive Event
  /-- The status member is assigned. -/
  | assigned (status : Status)
  /-- `RealConnect` is entered. -/
  | realConnect
  /-- `socket` returned this descriptor. -/
  | opened (fd : Int)
  | closed (fd : Int)
  | kernelRead (fd : Int) (result : ReadResult)
  | kernelWrite (fd : Int) (buf : List UInt8) (result : Int)
  /-- A call of the public `Send` and its value. -/
  | send (data : CharSpan) (result : Int)
  | onConnect
  | onDisconnect
  /-- The handler's `OnData` with its value. -/
  | onData (offer : List UInt8) (result : Int)
  | onWrite
  | sslHandshake (result : Int)
  | sslRead (plaintext : List UInt8)
  | sslWrite (buf : List UInt8) (result : Int)
  /-- The registered send callback with its value. -/
  | netSend (buf : List UInt8) (result : Int)
  /-- The registered receive callback with its value and the bytes it stored. -/
  | netRecv (len : Nat) (result : Int) (stored : List UInt8)
  deriving DecidableEq

/-- `Socket`, with the members of a subclass and the log of events. -/
structure Socket (σ : Type) where
  port : UInt16
  fd : Int
  protocol : Int
  timeoutCheck : Bool
  timeoutMs : Nat
  status : Status
  ip : List UInt8
  sub : σ
  log : List Event

namespace Socket

variable {σ ι : Type}

/-- The constructor, around the members of a fresh subclass object. -/
def construct (sub : σ) : Socket σ where
  port := 0
  fd := 0
  protocol := 0
  timeoutCheck := false
  timeoutMs := 0
  status := .init
  ip := []
  sub
  log := []

/-- Append to the log. -/
def emit (event : Event) (socket : Socket σ) : Socket σ :=
  { socket with log := socket.log ++ [event] }

/-- Assign the status member. -/
def assign (status : Status) (socket : Socket σ) : Socket σ :=
  { socket with status, log := socket.log ++ [.assigned status] }

/-- `SetProtocol`. -/
def setProtocol (protocol : Int) (socket : Socket σ) : Socket σ := { socket with protocol }

/-- `SetIpPort`. -/
def setIpPort (ip : List UInt8) (port : UInt16) (socket : Socket σ) : Socket σ :=
  { socket with ip, port }

/-- The timeout part of `Connect`, at the system time `now`. -/
def armTimeout (now timeoutMs : Nat) (socket : Socket σ) : Socket σ :=
  if timeoutMs ≠ 0 then { socket with timeoutCheck := true, timeoutMs := sizeAdd now timeoutMs }
  else { socket with timeoutCheck := false }

/-- `Connect`, at the system time `now`. -/
def connect (now timeoutMs : Nat) (socket : Socket σ) : Socket σ :=
  if ¬SocketAssistant.ipValid socket.ip then
    socket
  else
    let socket := socket.armTimeout now timeoutMs
    if socket.status = .init then socket.assign .startConnect else socket

/-- `Close`. -/
def close (socket : Socket σ) : Socket σ := socket.assign .disconnected

/-- The first part of `RealConnect`: the status check and the call of `socket`. -/
def openSocket (kernel : ConnectKernel) (socket : Socket σ) : Socket σ :=
  let socket := socket.emit .realConnect
  let socket := if socket.status ≠ .startConnect then socket.assign .disconnected else socket
  let fd := kernel.socket (if socket.protocol = 0 then .stream else .dgram)
  { socket with fd }.emit (.opened fd)

/-- The call of `connect` in `RealConnect`.  The comparison stands inside the argument list, so its
value is the length argument. -/
def connectAnswer (kernel : ConnectKernel) (socket : Socket σ) : SysResult :=
  kernel.connect socket.fd
    { sinAddr := SocketAssistant.inetAddr socket.ip, sinPort := socket.port }
    (if sizeofSockAddrIn < 0 then 1 else 0)

/-- `RealConnect`. -/
def realConnect (kernel : ConnectKernel) (socket : Socket σ) : Socket σ :=
  let socket := socket.openSocket kernel
  if socket.fd < 0 then
    socket.assign .disconnected
  else if SocketAssistant.makeNonBlock kernel.fcntl socket.fd < 0 then
    socket.assign .disconnected
  else
    match socket.connectAnswer kernel with
    | .ok => socket.assign .connecting
    | .failed errno =>
        if ¬SocketAssistant.errorWouldBlock errno then socket.assign .disconnected
        else socket.assign .connecting

/-- The protected `send`. -/
def rawSend (kernel : WriteResult) (data : CharSpan) (socket : Socket σ) : Int × Socket σ :=
  if ¬data.nonEmpty then
    (0, socket)
  else
    let sendLen := kernel.value data.len
    let socket := socket.emit (.kernelWrite socket.fd data.content sendLen)
    if sendLen ≤ 0 then (-1, socket) else (sendLen, socket)

/-! ## What a subclass may do -/

/-- One step of a virtual method: change members of the subclass, show an allowed event, or call a
public method of the base class. -/
inductive SubStep (allowed : Event → Prop) : Socket σ → Socket σ → Prop
  | members (socket : Socket σ) (sub : σ) : SubStep allowed socket { socket with sub }
  | event (socket : Socket σ) (event : Event) (ok : allowed event) :
      SubStep allowed socket (socket.emit event)
  | setProtocol (socket : Socket σ) (protocol : Int) :
      SubStep allowed socket (socket.setProtocol protocol)
  | setIpPort (socket : Socket σ) (ip : List UInt8) (port : UInt16) :
      SubStep allowed socket (socket.setIpPort ip port)
  | connect (socket : Socket σ) (now timeoutMs : Nat) :
      SubStep allowed socket (socket.connect now timeoutMs)
  | close (socket : Socket σ) : SubStep allowed socket socket.close

/-- Everything a virtual method may do that shows only allowed events. -/
def SubSteps (allowed : Event → Prop) : Socket σ → Socket σ → Prop :=
  Relation.ReflTransGen (SubStep allowed)

/-- The only event of its own that a connect, disconnect or `Send` method leads to is a `Send`. -/
def quiet : Event → Prop
  | .send _ _ => True
  | _ => False

/-- The events of a method that reads or writes on the descriptor `fd`. -/
def serving (fd : Int) : Event → Prop
  | .kernelWrite written _ _ => written = fd
  | .send _ _ => True
  | .onData _ _ => True
  | .onWrite => True
  | .sslHandshake _ => True
  | .sslRead _ => True
  | .sslWrite _ _ => True
  | .netSend _ _ => True
  | .netRecv _ _ _ => True
  | _ => False

end Socket

/-- The virtual methods of a subclass of `Socket`.  The arguments of type `ι` are the answers of
the kernel, and of a library below the socket, to one call. -/
structure SocketClass (σ ι : Type) where
  send : CharSpan → Socket σ → Option (Int × Socket σ)
  onConnect : Socket σ → Option (Socket σ)
  onDisconnect : Socket σ → Option (Socket σ)
  onRead : ι → Chunk → Bool → Socket σ → Option (Int × Socket σ)
  onWrite : ι → Socket σ → Option (Int × Socket σ)
  send_within : ∀ data socket result after, send data socket = some (result, after) →
    Socket.SubSteps Socket.quiet socket after
  onConnect_within : ∀ socket after, onConnect socket = some after →
    Socket.SubSteps Socket.quiet (socket.emit .onConnect) after
  onDisconnect_within : ∀ socket after, onDisconnect socket = some after →
    Socket.SubSteps Socket.quiet (socket.emit .onDisconnect) after
  onRead_within : ∀ input chunk finish socket result after,
    onRead input chunk finish socket = some (result, after) →
      Socket.SubSteps (Socket.serving socket.fd) socket after
  onWrite_within : ∀ input socket result after, onWrite input socket = some (result, after) →
    Socket.SubSteps (Socket.serving socket.fd) socket after

namespace Socket

variable {σ ι : Type}

/-! ## The engine's methods -/

/-- `RealDisconnect`. -/
def realDisconnect (cls : SocketClass σ ι) (socket : Socket σ) : Option (Socket σ) := do
  let socket ← cls.onDisconnect socket
  if socket.fd ≠ 0 then some (socket.emit (.closed socket.fd)) else some socket

/-- The loop of `RealRead` over the answers of the kernel, each with the input of the `OnRead` it
leads to.  A descriptor with no further answer would block. -/
def readLoop (cls : SocketClass σ ι) : List (ReadResult × ι) → Socket σ → Option (Socket σ)
  | [], socket => some (socket.emit (.kernelRead socket.fd (.failed .eagain)))
  | (.failed errno, _) :: _, socket =>
      let socket := socket.emit (.kernelRead socket.fd (.failed errno))
      if SocketAssistant.errorWouldBlock errno then some socket
      else some (socket.assign .disconnected)
  | (.got chunk, input) :: reads, socket =>
      let socket := socket.emit (.kernelRead socket.fd (.got chunk))
      if chunk.val.length = 0 then
        some (socket.assign .disconnected)
      else if chunk.val.length > kRecvCacheLen then
        some (socket.assign .disconnected)
      else do
        let flag : Bool := chunk.val.length = kRecvCacheLen
        let (result, socket) ← cls.onRead input chunk (!flag) socket
        if result < 0 then some (socket.assign .disconnected)
        else if flag then readLoop cls reads socket
        else some socket

/-- `RealRead`. -/
def realRead (cls : SocketClass σ ι) (reads : List (ReadResult × ι)) (socket : Socket σ) :
    Option (Socket σ) :=
  match socket.status with
  | .init | .startConnect | .disconnected => some (socket.assign .disconnected)
  | .connecting => some socket
  | .connected => readLoop cls reads socket

/-- The last part of `RealWrite`. -/
def writeData (cls : SocketClass σ ι) (input : ι) (socket : Socket σ) : Option (Socket σ) := do
  let (result, socket) ← cls.onWrite input socket
  if result < 0 then some (socket.assign .disconnected) else some socket

/-- `RealWrite`. -/
def realWrite (cls : SocketClass σ ι) (soError : SoError) (input : ι) (socket : Socket σ) :
    Option (Socket σ) :=
  match socket.status with
  | .init | .startConnect | .disconnected => some (socket.assign .disconnected)
  | .connecting =>
      let result := SocketAssistant.socketFinishConnecting soError
      if result < 0 then some (socket.assign .disconnected)
      else if result = 0 then some socket
      else do
        let socket ← cls.onConnect (socket.assign .connected)
        writeData cls input socket
  | .connected => writeData cls input socket

/-- `RealConnectCheck`, which never finds a timeout. -/
def realConnectCheck (_ : Socket σ) : Bool := false

/-- The calls a socket can receive. -/
inductive Call (ι : Type)
  | setProtocol (protocol : Int)
  | setIpPort (ip : List UInt8) (port : UInt16)
  | connect (now timeoutMs : Nat)
  | close
  | send (data : CharSpan)
  | realConnect (kernel : ConnectKernel)
  | realRead (reads : List (ReadResult × ι))
  | realWrite (soError : SoError) (input : ι)

/-- One call on a socket. -/
def perform (cls : SocketClass σ ι) : Call ι → Socket σ → Option (Socket σ)
  | .setProtocol protocol, socket => some (socket.setProtocol protocol)
  | .setIpPort ip port, socket => some (socket.setIpPort ip port)
  | .connect now timeoutMs, socket => some (socket.connect now timeoutMs)
  | .close, socket => some socket.close
  | .send data, socket => (cls.send data socket).map Prod.snd
  | .realConnect kernel, socket => some (socket.realConnect kernel)
  | .realRead reads, socket => realRead cls reads socket
  | .realWrite soError input, socket => realWrite cls soError input socket

/-! ## Small facts about the log -/

@[simp]
theorem log_emit (event : Event) (socket : Socket σ) :
    (socket.emit event).log = socket.log ++ [event] := rfl

@[simp]
theorem status_emit (event : Event) (socket : Socket σ) :
    (socket.emit event).status = socket.status := rfl

@[simp]
theorem fd_emit (event : Event) (socket : Socket σ) : (socket.emit event).fd = socket.fd := rfl

@[simp]
theorem sub_emit (event : Event) (socket : Socket σ) : (socket.emit event).sub = socket.sub := rfl

@[simp]
theorem log_assign (status : Status) (socket : Socket σ) :
    (socket.assign status).log = socket.log ++ [.assigned status] := rfl

@[simp]
theorem status_assign (status : Status) (socket : Socket σ) :
    (socket.assign status).status = status := rfl

@[simp]
theorem fd_assign (status : Status) (socket : Socket σ) :
    (socket.assign status).fd = socket.fd := rfl

@[simp]
theorem sub_assign (status : Status) (socket : Socket σ) :
    (socket.assign status).sub = socket.sub := rfl

/-- Arming the timeout touches nothing else. -/
theorem armTimeout_frame (now timeoutMs : Nat) (socket : Socket σ) :
    (socket.armTimeout now timeoutMs).status = socket.status ∧
      (socket.armTimeout now timeoutMs).log = socket.log ∧
      (socket.armTimeout now timeoutMs).fd = socket.fd ∧
      (socket.armTimeout now timeoutMs).sub = socket.sub := by
  rw [armTimeout]
  split
  · exact ⟨rfl, rfl, rfl, rfl⟩
  · exact ⟨rfl, rfl, rfl, rfl⟩

/-- `Connect` leaves the address alone. -/
theorem connect_address (now timeoutMs : Nat) (socket : Socket σ) :
    (socket.connect now timeoutMs).ip = socket.ip ∧
      (socket.connect now timeoutMs).port = socket.port := by
  have armed : (socket.armTimeout now timeoutMs).ip = socket.ip ∧
      (socket.armTimeout now timeoutMs).port = socket.port := by
    rw [armTimeout]
    split
    · exact ⟨rfl, rfl⟩
    · exact ⟨rfl, rfl⟩
  rw [connect]
  split
  · exact ⟨rfl, rfl⟩
  · simp only
    split
    · exact armed
    · exact armed

/-- A socket in `INIT` takes on an address that `IpValid` accepts. -/
theorem connect_takes_address {ip : List UInt8} (valid : SocketAssistant.ipValid ip = true)
    (port : UInt16) (now timeoutMs : Nat) {socket : Socket σ} (fresh : socket.status = .init) :
    ((socket.setIpPort ip port).connect now timeoutMs).status = .startConnect ∧
      ((socket.setIpPort ip port).connect now timeoutMs).ip = ip := by
  have accepted : ¬¬SocketAssistant.ipValid (socket.setIpPort ip port).ip = true :=
    not_not.mpr valid
  have armed : ((socket.setIpPort ip port).armTimeout now timeoutMs).status = .init :=
    (armTimeout_frame now timeoutMs _).1.trans fresh
  refine ⟨?_, (connect_address now timeoutMs _).1⟩
  rw [connect, if_neg accepted]
  simp only [if_pos armed, status_assign]

/-- `Connect` changes the log and the status only by starting a fresh socket. -/
theorem connect_cases (now timeoutMs : Nat) (socket : Socket σ) :
    (socket.status = .init ∧ (socket.connect now timeoutMs).status = .startConnect ∧
        (socket.connect now timeoutMs).log = socket.log ++ [.assigned .startConnect]) ∨
      ((socket.connect now timeoutMs).status = socket.status ∧
        (socket.connect now timeoutMs).log = socket.log) := by
  obtain ⟨status_eq, log_eq, -, -⟩ := armTimeout_frame now timeoutMs socket
  rw [connect]
  split
  · exact Or.inr ⟨rfl, rfl⟩
  · simp only
    split
    · rename_i fresh
      exact Or.inl ⟨status_eq.symm.trans fresh, rfl, by rw [log_assign, log_eq]⟩
    · exact Or.inr ⟨status_eq, log_eq⟩

/-- `Connect` leaves the descriptor and the subclass members alone. -/
theorem connect_frame (now timeoutMs : Nat) (socket : Socket σ) :
    (socket.connect now timeoutMs).fd = socket.fd ∧
      (socket.connect now timeoutMs).sub = socket.sub := by
  obtain ⟨-, -, fd_eq, sub_eq⟩ := armTimeout_frame now timeoutMs socket
  rw [connect]
  split
  · exact ⟨rfl, rfl⟩
  · simp only
    split
    · exact ⟨fd_eq, sub_eq⟩
    · exact ⟨fd_eq, sub_eq⟩

/-! ## `RealConnect` by cases -/

/-- The kernel calls of a `RealConnect` all succeed, or `connect` is in progress. -/
def AttemptSucceeds (kernel : ConnectKernel) (socket : Socket σ) : Prop :=
  let opened := socket.openSocket kernel
  0 ≤ opened.fd ∧ 0 ≤ SocketAssistant.makeNonBlock kernel.fcntl opened.fd ∧
    (opened.connectAnswer kernel = .ok ∨
      ∃ errno, opened.connectAnswer kernel = .failed errno ∧
        SocketAssistant.errorWouldBlock errno = true)

/-- A `RealConnect` whose kernel calls succeed ends in `CONNECTING`, whatever the status was. -/
theorem realConnect_of_succeeds {kernel : ConnectKernel} {socket : Socket σ}
    (succeeds : socket.AttemptSucceeds kernel) :
    socket.realConnect kernel = (socket.openSocket kernel).assign .connecting := by
  obtain ⟨fd_nonneg, nonblock, answer⟩ := succeeds
  simp only [realConnect]
  rw [if_neg (by omega), if_neg (by omega)]
  rcases answer with ok | ⟨errno, failed, wouldBlock⟩
  · rw [ok]
  · rw [failed]
    simp [wouldBlock]

/-- A `RealConnect` with a failing kernel call ends in `DISCONNECTED`. -/
theorem realConnect_of_fails {kernel : ConnectKernel} {socket : Socket σ}
    (fails : ¬socket.AttemptSucceeds kernel) :
    socket.realConnect kernel = (socket.openSocket kernel).assign .disconnected := by
  simp only [realConnect]
  split_ifs with no_fd blocking
  · rfl
  · rfl
  · split
    · rename_i ok
      exact absurd ⟨by omega, by omega, Or.inl ok⟩ fails
    · rename_i errno failed
      split
      · rfl
      · rename_i wouldBlock
        exact absurd ⟨by omega, by omega, Or.inr ⟨errno, failed, by simpa using wouldBlock⟩⟩ fails

/-- Opening a descriptor leaves the subclass members alone. -/
theorem sub_openSocket (kernel : ConnectKernel) (socket : Socket σ) :
    (socket.openSocket kernel).sub = socket.sub := by
  simp only [openSocket, sub_emit]
  split
  · rfl
  · rfl

/-- `RealConnect` keeps a status it expects and gives up any other, before it does anything else. -/
theorem openSocket_cases (kernel : ConnectKernel) (socket : Socket σ) :
    (socket.status = .startConnect ∧ (socket.openSocket kernel).status = .startConnect ∧
        (socket.openSocket kernel).log =
          socket.log ++ [.realConnect, .opened (socket.openSocket kernel).fd]) ∨
      (socket.status ≠ .startConnect ∧ (socket.openSocket kernel).status = .disconnected ∧
        (socket.openSocket kernel).log =
          socket.log ++
            [.realConnect, .assigned .disconnected, .opened (socket.openSocket kernel).fd]) := by
  by_cases expected : socket.status = .startConnect
  · left
    simp [openSocket, expected]
  · right
    simp [openSocket, expected]

/-- `send` shows what the kernel said of a real buffer, and answers -1 unless bytes were taken. -/
theorem rawSend_eq {data : CharSpan} (filled : data.nonEmpty = true) (kernel : WriteResult)
    (socket : Socket σ) :
    socket.rawSend kernel data =
      (if kernel.value data.len ≤ 0 then -1 else kernel.value data.len,
        socket.emit (.kernelWrite socket.fd data.content (kernel.value data.len))) := by
  rw [rawSend, if_neg (by simp [filled])]
  by_cases refused : kernel.value data.len ≤ 0
  · simp only [if_pos refused]
  · simp only [if_neg refused]

/-- `send` shows at most one call of `write`. -/
theorem rawSend_cases (kernel : WriteResult) (data : CharSpan) (socket : Socket σ) :
    (socket.rawSend kernel data).2 = socket ∨
      (socket.rawSend kernel data).2 =
        socket.emit (.kernelWrite socket.fd data.content (kernel.value data.len)) := by
  by_cases filled : data.nonEmpty = true
  · rw [rawSend_eq filled]
    exact Or.inr rfl
  · rw [rawSend, if_pos filled]
    exact Or.inl rfl

/-! ## Rules for virtual methods -/

theorem SubSteps.refl {allowed : Event → Prop} (socket : Socket σ) :
    SubSteps allowed socket socket := Relation.ReflTransGen.refl

theorem SubSteps.trans {allowed : Event → Prop} {before middle after : Socket σ}
    (first : SubSteps allowed before middle) (rest : SubSteps allowed middle after) :
    SubSteps allowed before after := Relation.ReflTransGen.trans first rest

theorem SubSteps.single {allowed : Event → Prop} {before after : Socket σ}
    (step : SubStep allowed before after) : SubSteps allowed before after :=
  Relation.ReflTransGen.single step

theorem SubStep.mono {allowed wider : Event → Prop}
    (widen : ∀ event, allowed event → wider event) {before after : Socket σ}
    (step : SubStep allowed before after) : SubStep wider before after := by
  cases step with
  | members sub => exact .members _ sub
  | event event ok => exact .event _ event (widen event ok)
  | setProtocol protocol => exact .setProtocol _ protocol
  | setIpPort ip port => exact .setIpPort _ ip port
  | connect now timeoutMs => exact .connect _ now timeoutMs
  | close => exact .close _

theorem SubSteps.mono {allowed wider : Event → Prop}
    (widen : ∀ event, allowed event → wider event) {before after : Socket σ}
    (steps : SubSteps allowed before after) : SubSteps wider before after :=
  Relation.ReflTransGen.mono (fun _ _ => SubStep.mono widen) _ _ steps

/-- Every event of a quiet method may also occur while serving. -/
theorem serving_of_quiet (fd : Int) (event : Event) (ok : quiet event) : serving fd event := by
  cases event <;> simp_all [quiet, serving]

/-- What each step of a virtual method preserves holds after the method. -/
theorem SubSteps.preserves {allowed : Event → Prop} (inv : Socket σ → Prop)
    (step : ∀ before after, SubStep allowed before after → inv before → inv after)
    {before after : Socket σ} (steps : SubSteps allowed before after) (initial : inv before) :
    inv after := by
  induction steps with
  | refl => exact initial
  | tail _ last ih => exact step _ _ last ih

/-- `send` is a step of a method that may write on its descriptor. -/
theorem rawSend_within {allowed : Event → Prop} {socket : Socket σ}
    (ok : ∀ buf result, allowed (.kernelWrite socket.fd buf result)) (kernel : WriteResult)
    (data : CharSpan) : SubSteps allowed socket (socket.rawSend kernel data).2 := by
  rcases rawSend_cases kernel data socket with same | shown
  · rw [same]
    exact .refl socket
  · rw [shown]
    exact .single (.event socket _ (ok _ _))

/-- No virtual method changes the descriptor. -/
theorem SubSteps.fd_eq {allowed : Event → Prop} {before after : Socket σ}
    (steps : SubSteps allowed before after) : after.fd = before.fd := by
  refine steps.preserves (fun socket => socket.fd = before.fd) ?_ rfl
  intro first next step same
  cases step with
  | connect now timeoutMs => exact (connect_frame now timeoutMs first).1.trans same
  | _ => exact same

/-- No virtual method moves the status back. -/
theorem SubSteps.rank_le {allowed : Event → Prop} {before after : Socket σ}
    (steps : SubSteps allowed before after) : before.status.rank ≤ after.status.rank := by
  refine steps.preserves (fun socket => before.status.rank ≤ socket.status.rank) ?_ le_rfl
  intro first next step before_le
  cases step with
  | connect now timeoutMs =>
      rcases connect_cases now timeoutMs first with ⟨fresh, started, -⟩ | ⟨same, -⟩
      · rw [fresh] at before_le
        rw [started]
        exact before_le.trans (by decide)
      · rw [same]
        exact before_le
  | close =>
      have last : before.status.rank ≤ Status.disconnected.rank := by
        cases before.status <;> decide
      exact last
  | _ => exact before_le

/-- A virtual method only appends to the log, and only allowed events or assigned stages. -/
theorem SubSteps.log_extends {allowed : Event → Prop} {before after : Socket σ}
    (steps : SubSteps allowed before after) :
    ∃ shown, after.log = before.log ++ shown ∧
      ∀ event ∈ shown, allowed event ∨ ∃ status, event = .assigned status := by
  refine steps.preserves
    (fun socket => ∃ shown, socket.log = before.log ++ shown ∧
      ∀ event ∈ shown, allowed event ∨ ∃ status, event = .assigned status) ?_ ⟨[], by simp⟩
  rintro first next step ⟨shown, log_eq, all⟩
  cases step with
  | members sub => exact ⟨shown, log_eq, all⟩
  | event event ok =>
      refine ⟨shown ++ [event], by simp [log_eq], ?_⟩
      simpa [or_imp, forall_and] using ⟨all, Or.inl ok⟩
  | setProtocol protocol => exact ⟨shown, log_eq, all⟩
  | setIpPort ip port => exact ⟨shown, log_eq, all⟩
  | connect now timeoutMs =>
      rcases connect_cases now timeoutMs first with ⟨-, -, log_next⟩ | ⟨-, log_next⟩
      · refine ⟨shown ++ [.assigned .startConnect], by simp [log_next, log_eq], ?_⟩
        simpa [or_imp, forall_and] using all
      · exact ⟨shown, log_next.trans log_eq, all⟩
  | close =>
      refine ⟨shown ++ [.assigned .disconnected], by simp [close, log_eq], ?_⟩
      simpa [or_imp, forall_and] using all

/-! ## Invariants of the engine's reads and writes -/

/-- What has to survive the loop of `RealRead`: `during` as long as it gathers full chunks, and
`ended` from the offer on. -/
structure ReadKept (cls : SocketClass σ ι) (during ended : Socket σ → Prop) : Prop where
  leave : ∀ socket, during socket → ended socket
  disconnect : ∀ socket, ended socket → ended (socket.assign .disconnected)
  barren : ∀ socket result, during socket → result.Barren →
    during (socket.emit (.kernelRead socket.fd result))
  gather : ∀ input chunk socket result after, during socket →
    cls.onRead input chunk false (socket.emit (.kernelRead socket.fd (.got chunk))) =
      some (result, after) → during after
  offer : ∀ input chunk socket result after, during socket →
    cls.onRead input chunk true (socket.emit (.kernelRead socket.fd (.got chunk))) =
      some (result, after) → ended after

namespace ReadKept

variable {cls : SocketClass σ ι} {during ended : Socket σ → Prop}

theorem readLoop (kept : ReadKept cls during ended) {reads : List (ReadResult × ι)}
    {before after : Socket σ} (execution : readLoop cls reads before = some after)
    (initial : during before) : ended after := by
  induction reads generalizing before with
  | nil =>
      cases execution
      exact kept.leave _ (kept.barren before _ initial trivial)
  | cons read reads ih =>
      obtain ⟨result, input⟩ := read
      cases result with
      | failed errno =>
          have shown := kept.leave _ (kept.barren before (.failed errno) initial trivial)
          simp only [Socket.readLoop] at execution
          split at execution
          · cases execution
            exact shown
          · cases execution
            exact kept.disconnect _ shown
      | got chunk =>
          simp only [Socket.readLoop] at execution
          split at execution
          · rename_i empty
            cases execution
            have shown := kept.barren before (.got chunk) initial (List.length_eq_zero_iff.mp empty)
            exact kept.disconnect _ (kept.leave _ shown)
          · rw [if_neg (Nat.not_lt.mpr chunk.property), Option.bind_eq_bind,
              Option.bind_eq_some_iff] at execution
            obtain ⟨⟨value, middle⟩, onRead, execution⟩ := execution
            simp only at execution
            by_cases full : chunk.val.length = kRecvCacheLen
            · rw [decide_eq_true full, Bool.not_true] at onRead
              have gathered := kept.gather input chunk before value middle initial onRead
              split at execution
              · cases execution
                exact kept.disconnect _ (kept.leave _ gathered)
              · rw [if_pos (decide_eq_true full)] at execution
                exact ih execution gathered
            · rw [decide_eq_false full, Bool.not_false] at onRead
              have offered := kept.offer input chunk before value middle initial onRead
              split at execution
              · cases execution
                exact kept.disconnect _ offered
              · rw [if_neg (by simpa using full)] at execution
                cases execution
                exact offered

theorem realRead (kept : ReadKept cls during ended) {reads : List (ReadResult × ι)}
    {before after : Socket σ} (execution : realRead cls reads before = some after)
    (initial : ended before) (entered : before.status = .connected → during before) :
    ended after := by
  rw [Socket.realRead] at execution
  split at execution
  · cases execution
    exact kept.disconnect _ initial
  · cases execution
    exact kept.disconnect _ initial
  · cases execution
    exact kept.disconnect _ initial
  · cases execution
    exact initial
  · rename_i connected
    exact kept.readLoop execution (entered connected)

end ReadKept

/-- What has to survive `RealWrite`: `during` from the report of the connection on, and `ended`
before it and afterwards. -/
structure WriteServed (cls : SocketClass σ ι) (during ended : Socket σ → Prop) : Prop where
  leave : ∀ socket, during socket → ended socket
  disconnect : ∀ socket, ended socket → ended (socket.assign .disconnected)
  onWrite : ∀ input socket result after, during socket →
    cls.onWrite input socket = some (result, after) → during after
  report : ∀ socket after, ended socket → socket.status = .connecting →
    cls.onConnect (socket.assign .connected) = some after → during after

namespace WriteServed

variable {cls : SocketClass σ ι} {during ended : Socket σ → Prop}

theorem writeData (served : WriteServed cls during ended) {input : ι} {before after : Socket σ}
    (execution : writeData cls input before = some after) (initial : during before) :
    ended after := by
  rw [Socket.writeData, Option.bind_eq_bind, Option.bind_eq_some_iff] at execution
  obtain ⟨⟨value, middle⟩, onWrite, execution⟩ := execution
  have written := served.leave middle (served.onWrite input before value middle initial onWrite)
  simp only at execution
  split at execution
  · cases execution
    exact served.disconnect _ written
  · cases execution
    exact written

theorem realWrite (served : WriteServed cls during ended) {soError : SoError} {input : ι}
    {before after : Socket σ} (execution : realWrite cls soError input before = some after)
    (initial : ended before) (entered : before.status = .connected → during before) :
    ended after := by
  rw [Socket.realWrite] at execution
  split at execution
  · cases execution
    exact served.disconnect _ initial
  · cases execution
    exact served.disconnect _ initial
  · cases execution
    exact served.disconnect _ initial
  · rename_i connecting
    simp only at execution
    split at execution
    · cases execution
      exact served.disconnect _ initial
    · split at execution
      · cases execution
        exact initial
      · rw [Option.bind_eq_bind, Option.bind_eq_some_iff] at execution
        obtain ⟨middle, onConnect, execution⟩ := execution
        have told := served.report before middle initial connecting onConnect
        exact served.writeData execution told
  · rename_i connected
    exact served.writeData execution (entered connected)

end WriteServed

/-- What an invariant has to survive for `RealWrite` to keep it. -/
structure WriteKept (cls : SocketClass σ ι) (inv : Socket σ → Prop) : Prop where
  disconnect : ∀ socket, inv socket → inv (socket.assign .disconnected)
  onWrite : ∀ input socket result after, inv socket →
    cls.onWrite input socket = some (result, after) → inv after
  report : ∀ socket after, inv socket → socket.status = .connecting →
    cls.onConnect (socket.assign .connected) = some after → inv after

namespace WriteKept

variable {cls : SocketClass σ ι} {inv : Socket σ → Prop}

theorem served (kept : WriteKept cls inv) : WriteServed cls inv inv where
  leave _ initial := initial
  disconnect := kept.disconnect
  onWrite := kept.onWrite
  report := kept.report

theorem realWrite (kept : WriteKept cls inv) {soError : SoError} {input : ι}
    {before after : Socket σ} (execution : realWrite cls soError input before = some after)
    (initial : inv before) : inv after :=
  kept.served.realWrite execution initial fun _ => initial

end WriteKept

/-- What an invariant has to survive for `RealRead` and `RealWrite` to keep it. -/
structure Kept (cls : SocketClass σ ι) (inv : Socket σ → Prop) : Prop where
  disconnect : ∀ socket, inv socket → inv (socket.assign .disconnected)
  barren : ∀ socket result, inv socket → result.Barren →
    inv (socket.emit (.kernelRead socket.fd result))
  onRead : ∀ input chunk finish socket result after, inv socket →
    cls.onRead input chunk finish (socket.emit (.kernelRead socket.fd (.got chunk))) =
      some (result, after) → inv after
  onWrite : ∀ input socket result after, inv socket →
    cls.onWrite input socket = some (result, after) → inv after
  report : ∀ socket after, inv socket → socket.status = .connecting →
    cls.onConnect (socket.assign .connected) = some after → inv after

namespace Kept

variable {cls : SocketClass σ ι} {inv : Socket σ → Prop}

theorem reads (kept : Kept cls inv) : ReadKept cls inv inv where
  leave _ initial := initial
  disconnect := kept.disconnect
  barren := kept.barren
  gather input chunk := kept.onRead input chunk false
  offer input chunk := kept.onRead input chunk true

theorem writes (kept : Kept cls inv) : WriteKept cls inv :=
  ⟨kept.disconnect, kept.onWrite, kept.report⟩

theorem realRead (kept : Kept cls inv) {reads : List (ReadResult × ι)} {before after : Socket σ}
    (execution : realRead cls reads before = some after) (initial : inv before) : inv after :=
  kept.reads.realRead execution initial fun _ => initial

theorem realWrite (kept : Kept cls inv) {soError : SoError} {input : ι} {before after : Socket σ}
    (execution : realWrite cls soError input before = some after) (initial : inv before) :
    inv after :=
  kept.writes.realWrite execution initial

end Kept

/-- A log only ever grows under `RealRead` and `RealWrite`. -/
theorem kept_log_grows (cls : SocketClass σ ι) (log : List Event) :
    Kept cls fun socket => log <+: socket.log where
  disconnect _ grown := grown.trans (List.prefix_append _ _)
  barren _ _ grown _ := grown.trans (List.prefix_append _ _)
  onRead input chunk finish socket result after grown execution := by
    obtain ⟨shown, log_eq, -⟩ := (cls.onRead_within _ _ _ _ _ _ execution).log_extends
    rw [log_eq, log_emit, List.append_assoc]
    exact grown.trans (List.prefix_append _ _)
  onWrite input socket result after grown execution := by
    obtain ⟨shown, log_eq, -⟩ := (cls.onWrite_within _ _ _ _ execution).log_extends
    rw [log_eq]
    exact grown.trans (List.prefix_append _ _)
  report socket after grown _ execution := by
    obtain ⟨shown, log_eq, -⟩ := (cls.onConnect_within _ _ execution).log_extends
    rw [log_eq, log_emit, log_assign, List.append_assoc, List.append_assoc]
    exact grown.trans (List.prefix_append _ _)

/-- A log only ever grows. -/
theorem log_prefix_of_perform {cls : SocketClass σ ι} {call : Call ι} {before after : Socket σ}
    (execution : perform cls call before = some after) : before.log <+: after.log := by
  cases call with
  | setProtocol protocol =>
      cases execution
      exact List.prefix_rfl
  | setIpPort ip port =>
      cases execution
      exact List.prefix_rfl
  | connect now timeoutMs =>
      cases execution
      rcases connect_cases now timeoutMs before with ⟨-, -, log_eq⟩ | ⟨-, log_eq⟩
      · rw [log_eq]
        exact List.prefix_append _ _
      · rw [log_eq]
  | close =>
      cases execution
      exact List.prefix_append _ _
  | send data =>
      rw [perform, Option.map_eq_some_iff] at execution
      obtain ⟨⟨result, next⟩, sent, rfl⟩ := execution
      obtain ⟨shown, log_eq, -⟩ := (cls.send_within _ _ _ _ sent).log_extends
      rw [log_eq]
      exact List.prefix_append _ _
  | realConnect kernel =>
      cases execution
      have opened : before.log <+: (before.openSocket kernel).log := by
        rcases openSocket_cases kernel before with ⟨-, -, log_eq⟩ | ⟨-, -, log_eq⟩
        · rw [log_eq]
          exact List.prefix_append _ _
        · rw [log_eq]
          exact List.prefix_append _ _
      by_cases succeeds : before.AttemptSucceeds kernel
      · rw [realConnect_of_succeeds succeeds]
        exact opened.trans (List.prefix_append _ _)
      · rw [realConnect_of_fails succeeds]
        exact opened.trans (List.prefix_append _ _)
  | realRead reads => exact (kept_log_grows cls before.log).realRead execution List.prefix_rfl
  | realWrite soError input =>
      exact (kept_log_grows cls before.log).realWrite execution List.prefix_rfl

end Socket
end NetworkBase
