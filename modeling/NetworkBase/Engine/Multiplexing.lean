import NetworkBase.Library.OrderedMap
import Mathlib.Data.BitVec
import Mathlib.Logic.Function.Basic

/-!
# The builds of `IoMultiplexing`

One build keeps the registered descriptors itself and hands them to `select`, the other leaves them
to the kernel and asks `epoll_wait`.  What is ready when a call looks, or becomes ready before its
time is over, is given with the call.
-/

namespace NetworkBase
namespace IoMultiplexing

/-- The ready descriptors, in the order in which the kernel lists them, and what each is ready
for. -/
structure Readiness where
  order : List Int
  readAble : Int → Bool
  writeAble : Int → Bool

/-- An `fd_set`. -/
abbrev FdSet := Int → Bool

/-- A `struct timeval`. -/
structure Timeval where
  tvSec : Nat
  tvUsec : Nat

/-- `select` with the sets of the descriptors to read and to write, which it reduces to the ready
ones below `nfds`.  It is undefined where it never returns. -/
def select (ready : Readiness) (nfds : Int) (readSet writeSet : FdSet) (timeout : Option Timeval) :
    Option (Int × FdSet × FdSet) :=
  let read fd := readSet fd && ready.readAble fd && decide (0 ≤ fd ∧ fd < nfds)
  let write fd := writeSet fd && ready.writeAble fd && decide (0 ≤ fd ∧ fd < nfds)
  let fds := (List.range nfds.toNat).map Int.ofNat
  let count := fds.countP read + fds.countP write
  if timeout.isNone ∧ count = 0 then none else some (count, read, write)

/-! ## The build over `select` -/

def kRead : Nat := 0x01

def kWrite : Nat := 0x02

/-- `IoMultiplexing` over `select`. -/
structure Select where
  readSet : FdSet
  writeSet : FdSet
  fdMax : Int
  map : OrderedMap Int Nat

namespace Select

/-- The constructor.  The sets are not initialised. -/
def construct (readSet writeSet : FdSet) : Select where
  readSet := readSet
  writeSet := writeSet
  fdMax := 0
  map := OrderedMap.empty

/-- `AddFd`. -/
def addFd (fd : Int) (read write : Bool) (io : Select) : Int × Select :=
  let io := if fd > io.fdMax then { io with fdMax := fd } else io
  let fdStatus := 0
  let fdStatus := if read then fdStatus ||| kRead else fdStatus
  let fdStatus := if write then fdStatus ||| kWrite else fdStatus
  (0, { io with map := io.map.insert fd fdStatus })

/-- `DeleteFd`. -/
def deleteFd (fd : Int) (io : Select) : Int × Select :=
  if (io.map.find fd).isNone then (-1, io)
  else (0, { io with map := io.map.erase fd })

/-- The loop of `Dispatch` over the registered descriptors. -/
def fillSets : List (Int × Nat) → FdSet × FdSet → FdSet × FdSet
  | [], sets => sets
  | (fd, fdStatus) :: entries, (readSet, writeSet) =>
      let readSet := if fdStatus &&& kRead ≠ 0 then Function.update readSet fd true else readSet
      let writeSet := if fdStatus &&& kWrite ≠ 0 then Function.update writeSet fd true else writeSet
      fillSets entries (readSet, writeSet)

/-- `Dispatch`, undefined where it never returns. -/
def dispatch (ready : Readiness) (endless : Bool) (timeOutMs : Nat) (io : Select) :
    Option (Int × Select) := do
  let (readSet, writeSet) := fillSets io.map.entries (fun _ => false, fun _ => false)
  let tvSec := timeOutMs / 1000
  let tv : Timeval := ⟨tvSec, (timeOutMs - tvSec * 1000) * 1000⟩
  let timeout := if endless then none else some tv
  if io.fdMax = 0 then
    let (value, _) ← select ready 0 (fun _ => false) (fun _ => false) timeout
    some (value, { io with readSet := readSet, writeSet := writeSet })
  else
    let (value, readSet, writeSet) ← select ready (io.fdMax + 1) readSet writeSet timeout
    some (value, { io with readSet := readSet, writeSet := writeSet })

/-- `FdCheck`: `read_able` and `write_able`. -/
def fdCheck (fd : Int) (io : Select) : Bool × Bool := (io.readSet fd, io.writeSet fd)

end Select

/-! ## The build over `epoll` -/

def epollIn : Nat := 0x001

def epollOut : Nat := 0x004

/-- A `struct epoll_event`. -/
structure EpollEvent where
  fd : Int
  events : Nat
  deriving DecidableEq

/-- The events of a registered descriptor that is ready. -/
def EpollEvent.reported (ready : Readiness) (interest : OrderedMap Int Nat) (fd : Int) :
    Option EpollEvent :=
  match interest.find fd with
  | none => none
  | some wanted =>
      let events := (if ready.readAble fd then wanted &&& epollIn else 0) |||
        (if ready.writeAble fd then wanted &&& epollOut else 0)
      if events = 0 then none else some ⟨fd, events⟩

def kEpollMax : Nat := 256

/-- `IoMultiplexing` over `epoll`; `interest` is what the kernel keeps for `epoll_`. -/
structure Epoll where
  epoll : Int
  init : Bool
  fdNum : UInt32
  events : List EpollEvent
  interest : OrderedMap Int Nat

namespace Epoll

/-- The constructor, over the value of `epoll_create`.  The events are not initialised. -/
def construct (epoll : Int) (events : List EpollEvent) : Epoll where
  epoll := epoll
  init := decide (epoll > 0)
  fdNum := 0
  events := events
  interest := OrderedMap.empty

/-- `epoll_ctl` with `EPOLL_CTL_ADD`. -/
def epollCtlAdd (fd : Int) (events : Nat) (io : Epoll) : Int × Epoll :=
  if io.epoll < 0 ∨ (io.interest.find fd).isSome then (-1, io)
  else (0, { io with interest := io.interest.insert fd events })

/-- `epoll_ctl` with `EPOLL_CTL_DEL`. -/
def epollCtlDel (fd : Int) (io : Epoll) : Int × Epoll :=
  if io.epoll < 0 ∨ (io.interest.find fd).isNone then (-1, io)
  else (0, { io with interest := io.interest.erase fd })

/-- `epoll_wait`: a value and the reported events.  It is undefined where it never returns. -/
def epollWait (ready : Readiness) (maxevents timeout : Int) (io : Epoll) :
    Option (Int × List EpollEvent) :=
  if io.epoll < 0 ∨ maxevents ≤ 0 then some (-1, [])
  else
    let found :=
      (ready.order.filterMap (EpollEvent.reported ready io.interest)).take maxevents.toNat
    if timeout < 0 ∧ found = [] then none else some (found.length, found)

/-- `AddFd`.  It refuses an object that is initialised. -/
def addFd (fd : Int) (read write : Bool) (io : Epoll) : Int × Epoll :=
  if io.init then (-1, io)
  else
    let events := 0
    let events := if read then events ||| epollIn else events
    let events := if write then events ||| epollOut else events
    let (result, io) := io.epollCtlAdd fd events
    if result ≠ 0 then (-1, io)
    else (0, { io with fdNum := io.fdNum + 1 })

/-- `DeleteFd`. -/
def deleteFd (fd : Int) (io : Epoll) : Int × Epoll :=
  if ¬io.init then (-1, io)
  else
    let (result, io) := io.epollCtlDel fd
    if result ≠ 0 then (-1, io)
    else (0, { io with fdNum := io.fdNum - 1 })

/-- `Dispatch`, undefined where it never returns. -/
def dispatch (ready : Readiness) (endless : Bool) (timeOutMs : Nat) (io : Epoll) :
    Option (Int × Epoll) := do
  if ¬io.init then
    some (-1, io)
  else
    let cleared : List EpollEvent := List.replicate kEpollMax ⟨0, 0⟩
    let timeout := if endless then -1 else (BitVec.ofNat 32 timeOutMs).toInt
    let (value, found) ← io.epollWait ready io.fdNum.toBitVec.toInt timeout
    some (value, { io with events := found ++ cleared.drop found.length })

/-- `FdCheck`: `read_able` and `write_able`, which are left alone by an object that is not
initialised. -/
def fdCheck (fd : Int) (io : Epoll) : Option (Bool × Bool) :=
  if ¬io.init then none
  else
    match (io.events.take io.fdNum.toNat).find? fun event => event.fd = fd with
    | none => some (false, false)
    | some event => some (event.events &&& epollIn ≠ 0, event.events &&& epollOut ≠ 0)

end Epoll

end IoMultiplexing
end NetworkBase
