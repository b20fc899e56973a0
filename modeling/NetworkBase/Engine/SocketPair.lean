import NetworkBase.Transport.Socket

/-!
# The wake-up pair

The pair of connected sockets through which other threads wake the engine.  A pair that was never
started is closed, and its descriptors are zero.
-/

namespace NetworkBase

/-- Size of the cache of `Readable`. -/
def kRecvBufCacheLen : Nat := 1024

/-- The answer of `read` on the pair: an error, or a number of bytes. -/
inductive PairRead
  | failed (errno : Errno)
  | got (len : Fin (kRecvBufCacheLen + 1))
  deriving DecidableEq

/-- A kernel call of the pair. -/
inductive PairCall
  | read (fd : Int) (result : PairRead)
  | write (fd : Int) (buf : List UInt8) (result : Int)
  | close (fd : Int)
  deriving DecidableEq

/-- `SocketPair`, with the log of its kernel calls. -/
structure SocketPair where
  close : Bool
  wakeupIn : Int
  wakeupOut : Int
  calls : List PairCall

namespace SocketPair

/-- The constructor. -/
def construct : SocketPair where
  close := true
  wakeupIn := 0
  wakeupOut := 0
  calls := []

/-- Record a kernel call. -/
def record (call : PairCall) (pair : SocketPair) : SocketPair :=
  { pair with calls := pair.calls ++ [call] }

/-- `Send`. -/
def send (kernel : WriteResult) (buf : List UInt8) (pair : SocketPair) : Int × SocketPair :=
  if pair.close then
    (-1, pair)
  else
    let sendLen := kernel.value buf.length
    let pair := pair.record (.write pair.wakeupIn buf sendLen)
    if sendLen < 0 then (-1, pair)
    else if sendLen = 0 then (-1, pair)
    else (sendLen, pair)

/-- `Stop`. -/
def stop (pair : SocketPair) : SocketPair :=
  if pair.close then
    pair
  else
    let pair :=
      if pair.wakeupOut > 0 then { pair.record (.close pair.wakeupOut) with wakeupOut := 0 }
      else pair
    let pair :=
      if pair.wakeupIn > 0 then { pair.record (.close pair.wakeupIn) with wakeupIn := 0 }
      else pair
    { pair with close := true }

/-- `GetReadFd`. -/
def getReadFd (pair : SocketPair) : Int := pair.wakeupOut

/-- `Readable`, over the answers of the kernel.  It reads on the descriptor it sends on. -/
def readable : List PairRead → SocketPair → SocketPair
  | [], pair => pair.record (.read pair.wakeupIn (.failed .eagain))
  | .failed errno :: _, pair =>
      let pair := pair.record (.read pair.wakeupIn (.failed errno))
      if SocketAssistant.errorWouldBlock errno then pair else pair.stop
  | .got len :: reads, pair =>
      let pair := pair.record (.read pair.wakeupIn (.got len))
      if len.val = 0 then pair.stop
      else if len.val > kRecvBufCacheLen then pair.stop
      else if len.val = kRecvBufCacheLen then readable reads pair
      else pair

end SocketPair
end NetworkBase
