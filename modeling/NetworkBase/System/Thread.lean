import NetworkBase.Library.PartialRun

/-!
# Threads

A controlling thread starts and stops workers through two flags that both sides write.  Every flag
access and every begin of a hook is a step of its own, and any side may take the next one.
-/

namespace NetworkBase

/-- What the controlling thread does next. -/
inductive ControlPoint
  | outside
  | startQuit
  | startBefore
  | startRunning
  | startUnquit
  | startSpawn
  | startAfter
  | startHalt
  | startReturn (value : Int)
  | stopQuit
  | stopBefore
  | stopHalt
  | stopWait
  | stopAfter
  | stopReturn
  deriving DecidableEq

/-- What a worker does next. -/
inductive WorkerPoint
  | before
  | beforeFailed
  | loop
  | read
  | readFailed
  | after
  | quit
  | ended
  deriving DecidableEq

/-- What a worker shows of itself. -/
inductive WorkerEvent
  | spawned
  | beforeThread
  | readThread
  | afterThread
  | quit
  deriving DecidableEq

/-- What happens.  A hook shows where it begins. -/
inductive ThreadEvent
  | beforeStart
  | afterStart
  | startReturned (value : Int)
  | beforeStop
  | stopHalted
  | afterStop
  | stopReturned
  | worker (id : Nat) (event : WorkerEvent)
  deriving DecidableEq

/-- `Thread` with the threads that are inside it, and what happened so far. -/
structure Thread where
  running : Bool
  quit : Bool
  control : ControlPoint
  workers : List WorkerPoint
  trace : List ThreadEvent

namespace Thread

/-- The constructor. -/
def construct : Thread where
  running := false
  quit := true
  control := .outside
  workers := []
  trace := []

/-- Show an event. -/
def record (event : ThreadEvent) (thread : Thread) : Thread :=
  { thread with trace := thread.trace ++ [event] }

/-- The controlling thread goes on at another point. -/
def goOn (control : ControlPoint) (thread : Thread) : Thread := { thread with control := control }

/-- A worker goes on at another point. -/
def workOn (id : Nat) (point : WorkerPoint) (thread : Thread) : Thread :=
  { thread with workers := thread.workers.set id point }

/-- One step of the controlling thread inside `Start` or `Stop`; `result` is what a hook returns. -/
def controlStep (result : Int) (thread : Thread) : Option Thread :=
  match thread.control with
  | .outside => none
  | .startQuit => some (thread.goOn (if ¬thread.quit then .startReturn 0 else .startBefore))
  | .startBefore =>
      some ((thread.record .beforeStart).goOn
        (if result < 0 then .startReturn (-1) else .startRunning))
  | .startRunning => some { thread with running := true, control := .startUnquit }
  | .startUnquit => some { thread with quit := false, control := .startSpawn }
  | .startSpawn =>
      some { thread with
        workers := thread.workers ++ [.before],
        trace := thread.trace ++ [.worker thread.workers.length .spawned],
        control := .startAfter }
  | .startAfter =>
      some ((thread.record .afterStart).goOn (if result < 0 then .startHalt else .startReturn 0))
  | .startHalt => some { thread with running := false, control := .startReturn (-1) }
  | .startReturn value => some ((thread.record (.startReturned value)).goOn .outside)
  | .stopQuit => some (thread.goOn (if thread.quit then .stopReturn else .stopBefore))
  | .stopBefore => some ((thread.record .beforeStop).goOn .stopHalt)
  | .stopHalt => some { thread.record .stopHalted with running := false, control := .stopWait }
  | .stopWait => some (thread.goOn (if ¬thread.quit then .stopWait else .stopAfter))
  | .stopAfter => some ((thread.record .afterStop).goOn .stopReturn)
  | .stopReturn => some ((thread.record .stopReturned).goOn .outside)

/-- One step of a worker inside `thread`; `result` is what a hook returns. -/
def workerStep (id : Nat) (result : Int) (thread : Thread) : Option Thread :=
  match thread.workers[id]? with
  | none => none
  | some .before =>
      some ((thread.record (.worker id .beforeThread)).workOn id
        (if result < 0 then .beforeFailed else .loop))
  | some .beforeFailed => some { thread.workOn id .loop with running := false }
  | some .loop => some (thread.workOn id (if thread.running then .read else .after))
  | some .read =>
      some ((thread.record (.worker id .readThread)).workOn id
        (if result < 0 then .readFailed else .loop))
  | some .readFailed => some { thread.workOn id .loop with running := false }
  | some .after => some ((thread.record (.worker id .afterThread)).workOn id .quit)
  | some .quit => some { (thread.record (.worker id .quit)).workOn id .ended with quit := true }
  | some .ended => none

/-- What may happen next. -/
inductive Turn
  | start
  | stop
  | control (result : Int)
  | worker (id : Nat) (result : Int)
  deriving DecidableEq

/-- One step of any thread.  `Start` and `Stop` are called from outside only. -/
def step : Turn → Thread → Option Thread
  | .start, thread => if thread.control = .outside then some (thread.goOn .startQuit) else none
  | .stop, thread => if thread.control = .outside then some (thread.goOn .stopQuit) else none
  | .control result, thread => thread.controlStep result
  | .worker id result, thread => thread.workerStep id result

end Thread
end NetworkBase
