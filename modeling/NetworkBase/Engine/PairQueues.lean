import Mathlib.Logic.Function.Basic
import NetworkBase.Engine.SocketPair
import NetworkBase.Library.PartialRun

/-!
# The two ends of the wake-up pair

The kernel connects the two descriptors of a pair by two byte queues.  What is written at one end
is read at the other, and a read of an empty queue fails or waits, as the descriptor was set up.
The pair sends and reads at the same end and reports the other one, so nothing that is sent is ever
read.
-/

namespace NetworkBase

/-- The descriptor of a kernel call. -/
def PairCall.fd : PairCall → Int
  | .read fd _ => fd
  | .write fd _ _ => fd
  | .close fd => fd

/-- Answers of the kernel to `Start`: what `socketpair` returns and leaves, and `fcntl`. -/
structure PairKernel where
  ret : Int
  sockets : Int × Int
  fcntl : Fcntl
  /-- Two new descriptors differ. -/
  distinct : ret = 0 → sockets.1 ≠ sockets.2

/-- The two connected ends: what is unread at a descriptor, and whether it was set up not to
block. -/
structure PairQueues where
  ends : Int × Int
  unread : Int → List UInt8
  nonBlock : Int → Bool

namespace PairQueues

/-- A new pair: nothing is unread, and both ends block. -/
def fresh (ends : Int × Int) : PairQueues where
  ends
  unread _ := []
  nonBlock _ := false

/-- The end that is connected to this one. -/
def peer (fd : Int) (queues : PairQueues) : Int :=
  if fd = queues.ends.1 then queues.ends.2 else queues.ends.1

/-- `MakeNonBlock`. -/
def makeNonBlock (fcntl : Fcntl) (fd : Int) (queues : PairQueues) : Int × PairQueues :=
  if SocketAssistant.makeNonBlock fcntl fd < 0 then (-1, queues)
  else (0, { queues with nonBlock := Function.update queues.nonBlock fd true })

/-- What a kernel call does to the queues. -/
def perform (queues : PairQueues) : PairCall → PairQueues
  | .read fd (.got len) =>
      { queues with
        unread := Function.update queues.unread fd ((queues.unread fd).drop len.val) }
  | .read _ (.failed _) => queues
  | .write fd buf result =>
      { queues with
        unread := Function.update queues.unread (queues.peer fd)
          (queues.unread (queues.peer fd) ++ buf.take result.toNat) }
  | .close fd => { queues with unread := Function.update queues.unread fd [] }

/-- The answers to reading a queue to its end: whole chunks and then what is left over, or
nothing. -/
def answers (queue : List UInt8) : List PairRead :=
  List.replicate (queue.length / kRecvBufCacheLen) (.got (Fin.last kRecvBufCacheLen)) ++
    if queue.length % kRecvBufCacheLen = 0 then [.failed .eagain]
    else [.got (Fin.ofNat (kRecvBufCacheLen + 1) (queue.length % kRecvBufCacheLen))]

/-- Reading to the end waits: the queue consists of whole chunks, and behind them the descriptor
blocks. -/
def Waits (fd : Int) (queues : PairQueues) : Prop :=
  queues.nonBlock fd = false ∧ (queues.unread fd).length % kRecvBufCacheLen = 0

instance (fd : Int) (queues : PairQueues) : Decidable (queues.Waits fd) := instDecidableAnd

end PairQueues

/-- A pair and its queues. -/
structure PairWorld where
  pair : SocketPair
  queues : PairQueues

/-- A call of the pair, and what the kernel answers to its write. -/
inductive PairOp
  | send (result : WriteResult) (buf : List UInt8)
  | readable
  deriving DecidableEq

/-- What the kernel accepts of a call of the pair. -/
def PairOp.accepted : PairOp → List UInt8
  | .send result buf => buf.take (result.value buf.length).toNat
  | .readable => []

namespace PairWorld

/-- `Start`.  The comparison is inside the second call of `MakeNonBlock`, so it is 0 or 1 that is
set up. -/
def start (kernel : PairKernel) (world : PairWorld) : Int × PairWorld :=
  if ¬world.pair.close then
    (0, world)
  else if kernel.ret > 0 then
    (-1, world)
  else
    let closed := (world.pair.record (.close kernel.sockets.1)).record (.close kernel.sockets.2)
    let (first, queues) := (PairQueues.fresh kernel.sockets).makeNonBlock kernel.fcntl
      kernel.sockets.1
    if first < 0 then
      (-1, { world with pair := closed })
    else
      let (second, queues) := queues.makeNonBlock kernel.fcntl
        (if kernel.sockets.2 < 0 then 1 else 0)
      if second < 0 then
        (-1, { world with pair := closed })
      else
        (0,
          { pair :=
              { world.pair with
                wakeupIn := kernel.sockets.1
                wakeupOut := kernel.sockets.2
                close := false }
            queues })

/-- The kernel calls of a call of the pair. -/
def newCalls (before after : PairWorld) : List PairCall :=
  after.pair.calls.drop before.pair.calls.length

/-- The world after the pair has made its kernel calls. -/
def follow (pair : SocketPair) (world : PairWorld) : PairWorld where
  pair
  queues := (pair.calls.drop world.pair.calls.length).foldl PairQueues.perform world.queues

/-- One call of the pair, undefined where it never returns. -/
def step : PairOp → PairWorld → Option PairWorld
  | .send result buf, world => some (world.follow (world.pair.send result buf).2)
  | .readable, world =>
      if world.queues.Waits world.pair.wakeupIn then
        none
      else
        some (world.follow
          (world.pair.readable (PairQueues.answers (world.queues.unread world.pair.wakeupIn))))

/-- What `Readable` leaves behind: nothing unread where the worker waits, and no read that could
wait, and no call on a descriptor of others. -/
structure Drains (before after : PairWorld) : Prop where
  drained : after.pair.close = false → after.queues.unread after.pair.getReadFd = []
  unblocked : ∀ fd result, .read fd result ∈ newCalls before after →
    before.queues.nonBlock fd = true
  own : ∀ call ∈ newCalls before after,
    call.fd = before.pair.wakeupIn ∨ call.fd = before.pair.wakeupOut

/-- `Readable` returns and drains the pair. -/
def Drained : PairOp → PairWorld → Prop
  | .send _ _, _ => True
  | .readable, world => ∃ after, step .readable world = some after ∧ Drains world after

end PairWorld

/-! ## Reading to the end -/

/-- Behind such an answer `Readable` returns and leaves the pair open. -/
def PairRead.Final : PairRead → Prop
  | .failed errno => SocketAssistant.errorWouldBlock errno = true
  | .got len => 0 < len.val ∧ len.val < kRecvBufCacheLen

/-- `Readable` reads whole chunks and then once more. -/
theorem SocketPair.readable_chunks (chunks : Nat) {last : PairRead} (final : last.Final)
    (pair : SocketPair) :
    pair.readable (List.replicate chunks (.got (Fin.last kRecvBufCacheLen)) ++ [last]) =
      { pair with
        calls := pair.calls ++
          (List.replicate chunks (PairRead.got (Fin.last kRecvBufCacheLen)) ++ [last]).map
            (.read pair.wakeupIn) } := by
  induction chunks generalizing pair with
  | zero =>
      cases last with
      | failed errno =>
          have would_block : SocketAssistant.errorWouldBlock errno = true := final
          simp only [List.replicate_zero, List.nil_append, readable, would_block, if_true]
          rfl
      | got len =>
          obtain ⟨some_read, short⟩ := final
          have short_ne : len.val ≠ kRecvBufCacheLen := Nat.ne_of_lt short
          simp only [List.replicate_zero, List.nil_append, readable,
            if_neg (Nat.ne_of_gt some_read), if_neg (Nat.not_lt.mpr short.le), if_neg short_ne]
          rfl
  | succ chunks ih =>
      have full : (Fin.last kRecvBufCacheLen).val = kRecvBufCacheLen := rfl
      rw [List.replicate_succ, List.cons_append, readable]
      simp only [full, if_neg (by decide : ¬kRecvBufCacheLen = 0), lt_irrefl, if_false, if_true]
      rw [ih]
      simp [record]

namespace PairQueues

/-- The answers are whole chunks and a last one. -/
theorem exists_answers (queue : List UInt8) :
    ∃ last : PairRead, last.Final ∧
      answers queue = List.replicate (queue.length / kRecvBufCacheLen)
        (.got (Fin.last kRecvBufCacheLen)) ++ [last] := by
  by_cases whole : queue.length % kRecvBufCacheLen = 0
  · exact ⟨.failed .eagain, rfl, by rw [answers, if_pos whole]⟩
  · refine ⟨_, ?_, by rw [answers, if_neg whole]⟩
    have short : queue.length % kRecvBufCacheLen < kRecvBufCacheLen := Nat.mod_lt _ (by decide)
    have val_eq : (Fin.ofNat (kRecvBufCacheLen + 1) (queue.length % kRecvBufCacheLen)).val =
        queue.length % kRecvBufCacheLen := Nat.mod_eq_of_lt (by omega)
    rw [PairRead.Final, val_eq]
    exact ⟨Nat.pos_of_ne_zero whole, short⟩

/-- How much an answer reads. -/
def len : PairRead → Nat
  | .failed _ => 0
  | .got len => len.val

/-- The answers read the whole queue. -/
theorem sum_answers (queue : List UInt8) : ((answers queue).map len).sum = queue.length := by
  have split_eq := Nat.div_add_mod queue.length kRecvBufCacheLen
  have chunk : len (.got (Fin.last kRecvBufCacheLen)) = kRecvBufCacheLen := rfl
  rw [answers, List.map_append, List.sum_append, List.map_replicate, List.sum_replicate, chunk,
    smul_eq_mul]
  split
  · rename_i whole
    rw [whole] at split_eq
    rw [Nat.mul_comm]
    exact split_eq
  · have val_eq : len (.got (Fin.ofNat (kRecvBufCacheLen + 1)
        (queue.length % kRecvBufCacheLen))) = queue.length % kRecvBufCacheLen :=
      Nat.mod_eq_of_lt ((Nat.mod_lt _ (by decide)).trans (Nat.lt_succ_self _))
    rw [List.map_singleton, List.sum_singleton, val_eq, Nat.mul_comm]
    exact split_eq

/-- Reads take from the front of the queue. -/
theorem foldl_reads (fd : Int) (reads : List PairRead) (queues : PairQueues) :
    (reads.map (.read fd)).foldl perform queues =
      { queues with
        unread := Function.update queues.unread fd
          ((queues.unread fd).drop (reads.map len).sum) } := by
  induction reads generalizing queues with
  | nil => simp
  | cons read reads ih =>
      rw [List.map_cons, List.foldl_cons, ih]
      cases read with
      | failed errno => simp [perform, len]
      | got len => simp [perform, PairQueues.len, List.drop_drop]

end PairQueues

namespace PairWorld

variable {world : PairWorld}

/-- At an end that does not block, `Readable` returns and has read everything there was. -/
theorem step_readable (ready : world.queues.nonBlock world.pair.wakeupIn = true) :
    ∃ after, step .readable world = some after ∧
      after.pair = { world.pair with calls := after.pair.calls } ∧
      after.queues =
        { world.queues with
          unread := Function.update world.queues.unread world.pair.wakeupIn [] } ∧
      newCalls world after =
        (PairQueues.answers (world.queues.unread world.pair.wakeupIn)).map
          (.read world.pair.wakeupIn) := by
  have no_wait : ¬world.queues.Waits world.pair.wakeupIn := fun waits =>
    absurd (ready.symm.trans waits.1) (by decide)
  obtain ⟨last, final, answers_eq⟩ :=
    PairQueues.exists_answers (world.queues.unread world.pair.wakeupIn)
  have read_all := SocketPair.readable_chunks
    ((world.queues.unread world.pair.wakeupIn).length / kRecvBufCacheLen) final world.pair
  rw [← answers_eq] at read_all
  have total := PairQueues.sum_answers (world.queues.unread world.pair.wakeupIn)
  refine ⟨_, if_neg no_wait, ?_, ?_, ?_⟩
  · simp only [follow, read_all]
  · simp only [follow, read_all, List.drop_left, PairQueues.foldl_reads, total, List.drop_length]
  · simp only [newCalls, follow, read_all, List.drop_left]

/-! ## What is sent is never read -/

/-- The pair is open, and nothing waits at the end where it reads. -/
structure Idle (world : PairWorld) : Prop where
  close : world.pair.close = false
  wakeupIn : world.pair.wakeupIn = world.queues.ends.1
  wakeupOut : world.pair.wakeupOut = world.queues.ends.2
  distinct : world.queues.ends.1 ≠ world.queues.ends.2
  ready : world.queues.nonBlock world.pair.wakeupIn = true
  nothing : world.queues.unread world.pair.wakeupIn = []

/-- `Start` leaves an empty pair. -/
theorem idle_start {kernel : PairKernel} (closed : world.pair.close = true)
    (made : kernel.ret = 0) (started : (start kernel world).1 = 0) :
    Idle (start kernel world).2 ∧
      (start kernel world).2.queues.unread (start kernel world).2.pair.wakeupOut = [] := by
  have ready : (Function.update (fun _ : Int => false) kernel.sockets.1 true) kernel.sockets.1 =
      true := Function.update_self _ _ _
  simp only [start, closed, made, not_true, if_false, gt_iff_lt, lt_irrefl,
    PairQueues.makeNonBlock] at started ⊢
  by_cases first : SocketAssistant.makeNonBlock kernel.fcntl kernel.sockets.1 < 0
  · simp [first] at started
  by_cases second : SocketAssistant.makeNonBlock kernel.fcntl
      (if kernel.sockets.2 < 0 then 1 else 0) < 0
  · simp [first, second] at started
  simp only [first, second, if_false, lt_irrefl]
  refine ⟨⟨rfl, rfl, rfl, kernel.distinct made, ?_, rfl⟩, rfl⟩
  by_cases same : kernel.sockets.1 = if kernel.sockets.2 < 0 then 1 else 0
  · rw [same]
    exact Function.update_self _ _ _
  · exact (Function.update_of_ne same _ _).trans ready

/-- A `Send` adds what the kernel accepts to the other end. -/
theorem idle_send (idle : Idle world) (result : WriteResult) (buf : List UInt8) :
    ∃ after, step (.send result buf) world = some after ∧ Idle after ∧
      after.queues.unread after.pair.wakeupOut =
        world.queues.unread world.pair.wakeupOut ++ (PairOp.send result buf).accepted := by
  have peer_eq : world.queues.peer world.pair.wakeupIn = world.pair.wakeupOut := by
    rw [PairQueues.peer, if_pos idle.wakeupIn, idle.wakeupOut]
  have other : world.pair.wakeupIn ≠ world.pair.wakeupOut := by
    rw [idle.wakeupIn, idle.wakeupOut]
    exact idle.distinct
  have sent : (world.pair.send result buf).2 = world.pair.record
      (.write world.pair.wakeupIn buf (result.value buf.length)) := by
    simp only [SocketPair.send, idle.close, Bool.false_eq_true, if_false]
    split
    · rfl
    · split
      · rfl
      · rfl
  have queues_eq : (world.follow (world.pair.send result buf).2).queues =
      { world.queues with
        unread := Function.update world.queues.unread world.pair.wakeupOut
          (world.queues.unread world.pair.wakeupOut ++ (PairOp.send result buf).accepted) } := by
    rw [follow, sent]
    simp only [SocketPair.record, List.drop_left, List.foldl_cons, List.foldl_nil,
      PairQueues.perform, peer_eq, PairOp.accepted]
  refine ⟨_, rfl, ?_, ?_⟩
  · exact
      { close := by rw [follow, sent]; exact idle.close
        wakeupIn := by rw [queues_eq, follow, sent]; exact idle.wakeupIn
        wakeupOut := by rw [queues_eq, follow, sent]; exact idle.wakeupOut
        distinct := by rw [queues_eq]; exact idle.distinct
        ready := by rw [queues_eq, follow, sent]; exact idle.ready
        nothing := by
          rw [queues_eq, follow, sent]
          exact (Function.update_of_ne other _ _).trans idle.nothing }
  · rw [queues_eq, follow, sent]
    exact Function.update_self _ _ _

/-- A `Readable` leaves the other end alone. -/
theorem idle_readable (idle : Idle world) :
    ∃ after, step .readable world = some after ∧ Idle after ∧
      after.queues.unread after.pair.wakeupOut = world.queues.unread world.pair.wakeupOut ∧
      (Drains world after ↔ world.queues.unread world.pair.wakeupOut = []) := by
  obtain ⟨after, execution, pair_eq, queues_eq, calls_eq⟩ := step_readable idle.ready
  have wakeupIn_eq : after.pair.wakeupIn = world.pair.wakeupIn := by rw [pair_eq]
  have wakeupOut_eq : after.pair.wakeupOut = world.pair.wakeupOut := by rw [pair_eq]
  have other : world.pair.wakeupOut ≠ world.pair.wakeupIn := by
    rw [idle.wakeupIn, idle.wakeupOut]
    exact idle.distinct.symm
  have unread_eq : after.queues.unread after.pair.wakeupOut =
      world.queues.unread world.pair.wakeupOut := by
    rw [wakeupOut_eq, queues_eq]
    exact Function.update_of_ne other _ _
  have close_eq : after.pair.close = false := by
    rw [pair_eq]
    exact idle.close
  refine ⟨after, execution, ?_, unread_eq, ?_⟩
  · exact
      { close := close_eq
        wakeupIn := by rw [wakeupIn_eq, queues_eq]; exact idle.wakeupIn
        wakeupOut := by rw [wakeupOut_eq, queues_eq]; exact idle.wakeupOut
        distinct := by rw [queues_eq]; exact idle.distinct
        ready := by rw [wakeupIn_eq, queues_eq]; exact idle.ready
        nothing := by rw [wakeupIn_eq, queues_eq]; exact Function.update_self _ _ _ }
  · rw [← unread_eq]
    refine ⟨fun drains => drains.drained close_eq, fun empty => ⟨fun _ => empty, ?_, ?_⟩⟩
    · intro fd result mem
      rw [calls_eq] at mem
      obtain ⟨_, -, call_eq⟩ := List.mem_map.mp mem
      obtain ⟨rfl, -⟩ := PairCall.read.inj call_eq
      exact idle.ready
    · intro call mem
      rw [calls_eq] at mem
      obtain ⟨_, -, rfl⟩ := List.mem_map.mp mem
      exact Or.inl rfl

/-- What the pair and its queues have to do with what was accepted so far. -/
def Holding (world : PairWorld) (sent : List UInt8) : Prop :=
  Idle world ∧ world.queues.unread world.pair.wakeupOut = sent

/-- No byte was accepted before a `Readable`. -/
def Unsent : PairOp → List UInt8 → Prop
  | .send _ _, _ => True
  | .readable, sent => sent = []

/-- One call, and whether it drains the pair. -/
theorem step_holding (op : PairOp) {sent : List UInt8} (holding : Holding world sent) :
    (Drained op world ↔ Unsent op sent) ∧
      ∃ after, step op world = some after ∧ Holding after (sent ++ op.accepted) := by
  obtain ⟨idle, rfl⟩ := holding
  cases op with
  | send result buf =>
      obtain ⟨after, execution, after_idle, unread_eq⟩ := idle_send idle result buf
      exact ⟨Iff.rfl, after, execution, after_idle, unread_eq⟩
  | readable =>
      obtain ⟨after, execution, after_idle, unread_eq, drains_iff⟩ := idle_readable idle
      refine ⟨?_, after, execution, after_idle, unread_eq.trans (List.append_nil _).symm⟩
      refine Iff.trans ?_ drains_iff
      constructor
      · rintro ⟨other, execution', drains⟩
        obtain rfl := Option.some.inj (execution.symm.trans execution')
        exact drains
      · exact fun drains => ⟨after, execution, drains⟩

theorem unsent_of_drained {sent : List UInt8} (holding : Holding world sent) {ops : List PairOp}
    (drained : PartialRun.Guarded step Drained ops world) :
    PartialRun.Guarded (fun op sent => some (sent ++ op.accepted)) Unsent ops sent := by
  refine PartialRun.guarded_abstract (fun op sent => sent ++ PairOp.accepted op) ?_ holding drained
  intro op before sent holding drained
  obtain ⟨drained_iff, simulates⟩ := step_holding op holding
  exact ⟨drained_iff.mp drained, simulates⟩

theorem drained_of_unsent {sent : List UInt8} (holding : Holding world sent) {ops : List PairOp}
    (unsent : PartialRun.Guarded (fun op sent => some (sent ++ op.accepted)) Unsent ops sent) :
    PartialRun.Guarded step Drained ops world := by
  refine PartialRun.guarded_of_abstract (fun op sent => sent ++ PairOp.accepted op) ?_ holding
    unsent
  intro op before sent holding unsent
  obtain ⟨drained_iff, after, execution, kept⟩ := step_holding op holding
  refine ⟨drained_iff.mpr unsent, ?_⟩
  intro next first
  obtain rfl := Option.some.inj (execution.symm.trans first)
  exact kept

/-- Every `Readable` of a run drains the pair if and only if the kernel has not accepted a byte of
any `Send` before it. -/
theorem drained_iff (kernel : PairKernel) (world : PairWorld) (ops : List PairOp)
    (closed : world.pair.close = true) (made : kernel.ret = 0)
    (started : (start kernel world).1 = 0) :
    PartialRun.Guarded step Drained ops (start kernel world).2 ↔
      PartialRun.Guarded (fun op sent => some (sent ++ op.accepted)) Unsent ops [] :=
  ⟨unsent_of_drained (idle_start closed made started),
    drained_of_unsent (idle_start closed made started)⟩

/-- The descriptors 3 and 4, of which nothing fails. -/
def threeAndFour : PairKernel where
  ret := 0
  sockets := (3, 4)
  fcntl := { getfl := fun _ => some 0, setfl := fun _ _ => true }
  distinct _ := by decide

/-- A pair before `Start`. -/
def unstarted : PairWorld where
  pair := .construct
  queues := .fresh (0, 0)

theorem drained_iff_unstarted :
    PartialRun.Guarded step Drained [.readable, .send (.accepts 1) [116]]
      (start threeAndFour unstarted).2 :=
  (drained_iff threeAndFour unstarted _ rfl rfl (by decide)).mpr
    ⟨rfl, fun _ _ => ⟨trivial, fun _ _ => trivial⟩⟩

/-- One byte is sent and never read. -/
theorem wakeByte_notDrained :
    ¬ ∀ (kernel : PairKernel) (world : PairWorld) (ops : List PairOp), world.pair.close = true →
      kernel.ret = 0 → (start kernel world).1 = 0 →
        PartialRun.Guarded step Drained ops (start kernel world).2 := by
  intro drained
  obtain ⟨-, later⟩ := unsent_of_drained (idle_start rfl rfl (by decide))
    (drained threeAndFour unstarted [.send (.accepts 1) [116], .readable] rfl rfl (by decide))
  have sent : (PairOp.send (.accepts 1) [116]).accepted = [] := (later _ rfl).1
  exact absurd sent (by decide)

end PairWorld
end NetworkBase
