import NetworkBase.Library.History
import NetworkBase.Transport.PlaintextStream
import NetworkBase.Transport.ReadStream

/-!
# The encrypted stream to the library

`OnRead` stages the incoming ciphertext in `tls_read_`, and the library fetches it through its
receive callback.  The callback waits for a whole request: it answers with exactly the requested
bytes, next in the stream, or with nothing at all.
-/

namespace NetworkBase
namespace TransmissionSecurity

open Transmission (receivedBy)

variable {η : Type}

/-- The bytes the receive callback stored for the library in an event. -/
def storedBy : Event → List UInt8
  | .netRecv _ _ stored => stored
  | _ => []

/-- The ciphertext: the kernel brings it and the receive callback stores it. -/
def cipherView : StreamView where
  outOf := storedBy
  inpOf := receivedBy
  plain event plain := by
    cases event with
    | assigned status => exact ⟨rfl, rfl⟩
    | realConnect => exact ⟨rfl, rfl⟩
    | opened fd => exact ⟨rfl, rfl⟩
    | _ => exact absurd plain id

/-- With fewer bytes waiting than requested the callback stores nothing and has the library wait;
otherwise it stores the next bytes of the stream, as many as requested. -/
def RightAnswer (held₀ : List UInt8) (earlier : List Event) : Event → Prop
  | .netRecv len result stored =>
      let waiting :=
        (held₀ ++ earlier.flatMap receivedBy).drop (earlier.flatMap storedBy).length
      if waiting.length < len then result = errSslWantRead ∧ stored = []
      else result = len ∧ stored = waiting.take len
  | _ => True

/-- An event that has no part in the ciphertext on its way to the library. -/
def Aside : Event → Prop
  | .netRecv _ _ _ => False
  | .kernelRead _ (.got _) => False
  | _ => True

theorem Aside.silent {event : Event} (aside : Aside event) : cipherView.Silent event := by
  cases event with
  | netRecv len result stored => exact absurd aside id
  | kernelRead fd result =>
      cases result with
      | failed errno => exact ⟨rfl, rfl⟩
      | got chunk => exact absurd aside id
  | _ => exact ⟨rfl, rfl⟩

theorem Aside.rightAnswer {event : Event} (aside : Aside event) (held₀ : List UInt8)
    (earlier : List Event) : RightAnswer held₀ earlier event := by
  cases event with
  | netRecv len result stored => exact absurd aside id
  | _ => trivial

/-- The ciphertext is conserved, the library got right answers, little is waiting, and the library
is set up. -/
structure Fed (base : List Event) (held₀ : List UInt8) (socket : Socket (TransmissionSecurity η)) :
    Prop where
  staged : StreamStaged cipherView TransmissionSecurity.tlsRead base held₀ socket
  answers : History.Throughout (RightAnswer held₀) base socket.log
  small : socket.sub.tlsRead.unread.length < 2 ^ 30
  ready : socket.sub.init = true

section Steps

variable {base : List Event} {held₀ : List UInt8}
  {before after : Socket (TransmissionSecurity η)}

theorem Fed.grown (fed : Fed base held₀ before) : base <+: before.log := by
  obtain ⟨shown, log_eq, -⟩ := fed.staged
  exact ⟨shown, log_eq.symm⟩

/-- A step that leaves `tls_read_` alone. -/
theorem Fed.extend (fed : Fed base held₀ before)
    (queue_eq : after.sub.tlsRead = before.sub.tlsRead) (init_eq : after.sub.init = before.sub.init)
    {shown : List Event} (log_eq : after.log = before.log ++ shown)
    (aside : ∀ event ∈ shown, Aside event) : Fed base held₀ after where
  staged := fed.staged.extend queue_eq log_eq fun event mem => (aside event mem).silent
  answers := by
    rw [log_eq]
    exact fed.answers.append fed.grown fun event mem => (aside event mem).rightAnswer held₀
  small := by
    rw [queue_eq]
    exact fed.small
  ready := init_eq.trans fed.ready

/-- A step that leaves `tls_read_` and the log alone. -/
theorem Fed.congr (fed : Fed base held₀ before)
    (queue_eq : after.sub.tlsRead = before.sub.tlsRead) (init_eq : after.sub.init = before.sub.init)
    (log_eq : after.log = before.log) : Fed base held₀ after :=
  fed.extend queue_eq init_eq (log_eq.trans (List.append_nil _).symm) (by simp)

theorem Fed.emit (fed : Fed base held₀ before) {event : Event} (aside : Aside event) :
    Fed base held₀ (before.emit event) :=
  fed.extend rfl rfl rfl (List.forall_mem_singleton.mpr aside)

/-- An `int` holds every small size. -/
theorem toInt_of_lt {size : Nat} (small : size < 2 ^ 30) : toInt size = size := by
  rw [toInt, Int.bmod]
  split
  · omega
  · omega

/-- What the receive callback does. -/
theorem mbedtlsNetRecv_spec (len : Nat) {socket : Socket (TransmissionSecurity η)}
    (small : socket.sub.tlsRead.unread.length < 2 ^ 30) :
    socket.sub.tlsRead.unread.length < len ∧
        mbedtlsNetRecv len socket =
          (errSslWantRead, socket.emit (.netRecv len errSslWantRead [])) ∨
      len ≤ socket.sub.tlsRead.unread.length ∧ ∃ tlsRead : SoundBuffer,
        tlsRead.unread = socket.sub.tlsRead.unread.drop len ∧
        mbedtlsNetRecv len socket =
          ((len : Int), (update (fun sub => { sub with tlsRead, readTempLen := len }) socket).emit
            (.netRecv len len (socket.sub.tlsRead.unread.take len))) := by
  by_cases short : socket.sub.tlsRead.unread.length < len
  · left
    refine ⟨short, ?_⟩
    rw [mbedtlsNetRecv, SoundBuffer.getSize_eq, if_pos short]
  · right
    have whole : len ≤ socket.sub.tlsRead.unread.length := Nat.not_lt.mp short
    have copied : tlsReadBufferPopData len socket.sub.tlsRead.unread =
        ((len : Int), socket.sub.tlsRead.unread.take len) := by
      rw [tlsReadBufferPopData, if_neg (Nat.not_lt.mpr whole)]
    have inside : ¬((len : Int) < 0 ∨ (len : Int) > socket.sub.tlsRead.unread.length) := by omega
    obtain ⟨result_eq, unread_eq⟩ := SoundBuffer.consume_spec len socket.sub.tlsRead
    rw [AutoGrowBuffer.popResult, if_neg inside] at result_eq
    rw [AutoGrowBuffer.popCount, if_neg inside, Int.toNat_natCast] at unread_eq
    refine ⟨whole, (socket.sub.tlsRead.consume len).2, unread_eq, ?_⟩
    have returned : ¬toInt len < 0 := by
      rw [toInt_of_lt (by omega)]
      omega
    simp only [mbedtlsNetRecv, SoundBuffer.getSize_eq, if_neg short, update, SoundBuffer.popHead,
      copied, result_eq, if_neg returned]
    rw [toInt_of_lt (by omega)]

/-- A request is answered and shown once.  With fewer bytes waiting than requested it returns that
value and leaves `tls_read_` as it is; otherwise it returns the number of bytes, which it stores,
and they leave `tls_read_`. -/
def Fetches (len : Nat) (socket : Socket (TransmissionSecurity η)) : Prop :=
  let waiting := socket.sub.tlsRead.unread
  let (result, after) := mbedtlsNetRecv len socket
  if waiting.length < len then
    result = errSslWantRead ∧ after.sub.tlsRead = socket.sub.tlsRead ∧
      after.log = socket.log ++ [.netRecv len errSslWantRead []]
  else
    result = len ∧ after.sub.tlsRead.unread = waiting.drop len ∧
      after.log = socket.log ++ [.netRecv len len (waiting.take len)]

theorem fetches_of_small (len : Nat) {socket : Socket (TransmissionSecurity η)}
    (small : socket.sub.tlsRead.unread.length < 2 ^ 30) : Fetches len socket := by
  rcases mbedtlsNetRecv_spec len small with
    ⟨short, answer⟩ | ⟨whole, tlsRead, unread_eq, answer⟩
  · simp only [Fetches, answer, if_pos short]
    exact ⟨trivial, rfl, rfl⟩
  · simp only [Fetches, answer, if_neg (Nat.not_lt.mpr whole)]
    exact ⟨trivial, unread_eq, rfl⟩

/-- The length that a callback requests. -/
def requestOf : NetCall → Option Nat
  | .recv len => some len
  | .send _ _ => none

/-- The length of the request that an event shows. -/
def requestShown : Event → Option Nat
  | .netRecv len _ _ => some len
  | _ => none

/-- A callback shows its request, if it is one. -/
theorem requestShown_netCall (call : NetCall) (socket : Socket (TransmissionSecurity η)) :
    ∃ shown, (netCall call socket).log = socket.log ++ shown ∧
      shown.filterMap requestShown = (requestOf call).toList := by
  cases call with
  | send buf kernel =>
      have written : ∃ shown, (socket.rawSend kernel (.bytes buf)).2.log = socket.log ++ shown ∧
          shown.filterMap requestShown = [] := by
        rcases Socket.rawSend_cases kernel (.bytes buf) socket with same | shows
        · exact ⟨[], by rw [same, List.append_nil], rfl⟩
        · exact ⟨_, by rw [shows]; rfl, rfl⟩
      obtain ⟨shown, log_eq, silent⟩ := written
      simp only [netCall, mbedtlsNetSend]
      split
      · refine ⟨shown ++ [.netSend buf (-1)], ?_, ?_⟩
        · rw [← List.append_assoc, ← log_eq]
          rfl
        · rw [List.filterMap_append, silent]
          rfl
      · refine ⟨shown ++ [.netSend buf (toInt buf.length)], ?_, ?_⟩
        · rw [← List.append_assoc, ← log_eq]
          rfl
        · rw [List.filterMap_append, silent]
          rfl
  | recv len =>
      simp only [netCall, mbedtlsNetRecv]
      split
      · exact ⟨_, rfl, rfl⟩
      · split
        · exact ⟨_, rfl, rfl⟩
        · exact ⟨_, rfl, rfl⟩

/-- The library's requests are shown one by one. -/
theorem requestShown_netCalls (calls : List NetCall) (socket : Socket (TransmissionSecurity η)) :
    ∃ shown, (netCalls calls socket).log = socket.log ++ shown ∧
      shown.filterMap requestShown = calls.filterMap requestOf := by
  induction calls generalizing socket with
  | nil => exact ⟨[], (List.append_nil _).symm, rfl⟩
  | cons call calls ih =>
      obtain ⟨first, first_eq, asked⟩ := requestShown_netCall call socket
      obtain ⟨rest, rest_eq, asked_rest⟩ := ih (netCall call socket)
      refine ⟨first ++ rest, ?_, ?_⟩
      · rw [← List.append_assoc, ← first_eq]
        exact rest_eq
      · rw [List.filterMap_append, asked, asked_rest]
        cases call with
        | send buf kernel => rfl
        | recv len => rfl

/-- The receive callback answers right. -/
theorem fed_mbedtlsNetRecv (len : Nat) (fed : Fed base held₀ before) :
    Fed base held₀ (mbedtlsNetRecv len before).2 := by
  obtain ⟨shown, log_eq, conserved⟩ := fed.staged
  have waiting_eq : (held₀ ++ shown.flatMap receivedBy).drop (shown.flatMap storedBy).length =
      before.sub.tlsRead.unread := by
    have whole : shown.flatMap storedBy ++ before.sub.tlsRead.unread =
        held₀ ++ shown.flatMap receivedBy := conserved
    rw [← whole, List.drop_left]
  rcases mbedtlsNetRecv_spec len fed.small with
    ⟨short, answer⟩ | ⟨whole, tlsRead, unread_eq, answer⟩
  · rw [answer]
    refine ⟨fed.staged.emit ⟨rfl, rfl⟩, fed.answers.concat log_eq ?_, fed.small, fed.ready⟩
    rw [RightAnswer, waiting_eq, if_pos short]
    exact ⟨rfl, rfl⟩
  · rw [answer]
    refine ⟨?_, fed.answers.concat log_eq ?_, ?_, fed.ready⟩
    · have popped := fed.staged.pop
        (.netRecv len len (before.sub.tlsRead.unread.take len)) rfl rfl
      rw [← unread_eq] at popped
      exact popped
    · rw [RightAnswer, waiting_eq, if_neg (Nat.not_lt.mpr whole)]
      exact ⟨rfl, rfl⟩
    · change tlsRead.unread.length < 2 ^ 30
      rw [unread_eq, List.length_drop]
      exact (Nat.sub_le _ _).trans_lt fed.small

/-- The send callback has no part in it. -/
theorem fed_mbedtlsNetSend (buf : List UInt8) (kernel : WriteResult)
    (fed : Fed base held₀ before) : Fed base held₀ (mbedtlsNetSend buf kernel before).2 := by
  have written : Fed base held₀ (before.rawSend kernel (.bytes buf)).2 := by
    rcases Socket.rawSend_cases kernel (.bytes buf) before with same | shown
    · rw [same]
      exact fed
    · rw [shown]
      exact fed.emit trivial
  simp only [mbedtlsNetSend]
  split
  · exact written.emit trivial
  · exact written.emit trivial

theorem fed_netCall (call : NetCall) (fed : Fed base held₀ before) :
    Fed base held₀ (netCall call before) := by
  cases call with
  | send buf kernel => exact fed_mbedtlsNetSend buf kernel fed
  | recv len => exact fed_mbedtlsNetRecv len fed

theorem fed_decrypt {reads : List SslRead} {flagged : Bool} (fed : Fed base held₀ before)
    (execution : decrypt reads before = some (flagged, after)) : Fed base held₀ after := by
  refine decrypt_keeps (Fed base held₀) (fun call _ => fed_netCall call) ?_ execution fed
  intro bytes sourceRead socket fetched
  have shown : Fed base held₀ (socket.emit (.sslRead bytes)) := fetched.emit trivial
  exact shown.congr rfl rfl rfl

/-- `Send` leaves `tls_read_` alone. -/
theorem fed_send {data : CharSpan} {result : Int} (fed : Fed base held₀ before)
    (execution : send data before = some (result, after)) : Fed base held₀ after := by
  rw [send] at execution
  split at execution
  · cases execution
    exact fed.emit trivial
  · rw [Option.bind_eq_bind, Option.bind_eq_some_iff] at execution
    obtain ⟨⟨value, sourceSend⟩, -, execution⟩ := execution
    cases execution
    have queued : Fed base held₀ (update (fun sub => { sub with sourceSend }) before) :=
      fed.congr rfl rfl rfl
    exact queued.emit trivial

theorem Fed.bare (fed : Fed base held₀ before) (alone : Socket.Bare before after) :
    Fed base held₀ after := by
  obtain ⟨sub_eq, shown, log_eq, plain⟩ := alone
  refine fed.extend (by rw [sub_eq]) (by rw [sub_eq]) log_eq ?_
  intro event mem
  have plainly := plain event mem
  cases event with
  | assigned status => trivial
  | realConnect => trivial
  | opened fd => trivial
  | _ => exact absurd plainly id

/-- The chunk of an `OnRead` is staged. -/
theorem Fed.stored {chunk : Chunk} {added : Int} {tlsRead : SoundBuffer}
    (fed : Fed base held₀ before)
    (room : before.sub.tlsRead.unread.length + chunk.val.length < 2 ^ 30)
    (push : before.sub.tlsRead.addTailData (.bytes chunk.val) = some (added, tlsRead)) :
    Fed base held₀ (update (fun sub => { sub with tlsRead })
      (before.emit (.kernelRead before.fd (.got chunk)))) := by
  obtain ⟨-, unread_eq⟩ := SoundBuffer.addTailData_of_some push
  rw [(Transmission.added_chunk chunk).1] at unread_eq
  obtain ⟨since, log_eq⟩ := fed.grown
  refine ⟨?_, fed.answers.concat log_eq.symm trivial, ?_, fed.ready⟩
  · have pushed := fed.staged.push (.kernelRead before.fd (.got chunk)) rfl
    have received : cipherView.inpOf (.kernelRead before.fd (.got chunk)) = chunk.val := rfl
    rw [received, ← unread_eq] at pushed
    exact pushed
  · change tlsRead.unread.length < 2 ^ 30
    rw [unread_eq, List.length_append]
    exact room

theorem Fed.shaken (fed : Fed base held₀ before) (call : SslCall) :
    Fed base held₀ (sslHandshake call before).2 :=
  (netCalls_keeps (Fed base held₀) (fun first _ => fed_netCall first) call.net fed).emit trivial

/-- `OnRead` stages the chunk and hands the library what it asks for. -/
theorem fed_onRead {handler : SocketHandler η} {input : TlsInput} {chunk : Chunk} {finish : Bool}
    {result : Int} (fed : Fed base held₀ before)
    (room : before.sub.tlsRead.unread.length + chunk.val.length < 2 ^ 30)
    (execution : onRead handler input chunk finish
      (before.emit (.kernelRead before.fd (.got chunk))) = some (result, after)) :
    Fed base held₀ after := by
  cases readEnds_of_onRead execution with
  | unready unready => exact absurd fed.ready unready
  | stored _ _ push => exact fed.stored room push
  | shaking _ _ push => exact (fed.stored room push).shaken input.handshake
  | failed _ _ push _ _ looped =>
      exact fed_decrypt ((fed.stored room push).shaken input.handshake) looped
  | offered _ _ push _ decrypted looped value next calls sourceRead =>
      have fetched := fed_decrypt ((fed.stored room push).shaken input.handshake) looped
      have shown : Fed base held₀
          (decrypted.emit (.onData decrypted.sub.sourceRead.unread value)) := fetched.emit trivial
      have offered : Fed base held₀ (update (fun sub => { sub with
          handler := (handler.onData decrypted.sub.sourceRead.unread decrypted.sub.handler).2.2 })
          (decrypted.emit (.onData decrypted.sub.sourceRead.unread value))) :=
        shown.congr rfl rfl rfl
      have told : Fed base held₀ next :=
        Socket.callBack_keeps (fun _ _ => Fed.bare) (fun _ _ _ _ => fed_send) calls offered
      exact told.congr rfl rfl rfl

end Steps

/-! ## Runs -/

/-- A call of the incoming side: a chunk from the kernel, handed to `OnRead` as `RealRead` does, or
a request of the library. -/
inductive CipherCall
  | onRead (input : TlsInput) (chunk : Chunk) (finish : Bool)
  | netRecv (len : Nat)

/-- One call of the incoming side. -/
def cipherStep (handler : SocketHandler η) :
    CipherCall → Socket (TransmissionSecurity η) → Option (Socket (TransmissionSecurity η))
  | .onRead input chunk finish, socket =>
      (onRead handler input chunk finish
        (socket.emit (.kernelRead socket.fd (.got chunk)))).map Prod.snd
  | .netRecv len, socket => some (mbedtlsNetRecv len socket).2

/-- The call leaves fewer than `2 ^ 30` bytes of ciphertext waiting. -/
def CipherCall.Room : CipherCall → Socket (TransmissionSecurity η) → Prop
  | .onRead _ chunk _, socket => socket.sub.tlsRead.unread.length + chunk.val.length < 2 ^ 30
  | .netRecv _, _ => True

/-- The call leaves fewer than `2 ^ 30` bytes in the queues. -/
def CipherCall.Fits (handler : SocketHandler η) :
    CipherCall → Socket (TransmissionSecurity η) → Prop
  | .onRead input chunk finish, socket => ReadFits handler input chunk finish socket
  | .netRecv _, _ => True

theorem CipherCall.Fits.room {handler : SocketHandler η} {call : CipherCall}
    {socket : Socket (TransmissionSecurity η)} (fits : call.Fits handler socket) :
    call.Room socket := by
  cases call with
  | onRead input chunk finish => exact fits.ciphertext
  | netRecv len => trivial

theorem fed_cipherStep {handler : SocketHandler η} {base : List Event} {held₀ : List UInt8}
    {call : CipherCall} {before after : Socket (TransmissionSecurity η)}
    (fed : Fed base held₀ before) (room : call.Room before)
    (execution : cipherStep handler call before = some after) : Fed base held₀ after := by
  cases call with
  | onRead input chunk finish =>
      rw [cipherStep, Option.map_eq_some_iff] at execution
      obtain ⟨⟨result, next⟩, read, rfl⟩ := execution
      exact fed_onRead fed room read
  | netRecv len =>
      cases execution
      exact fed_mbedtlsNetRecv len fed

/-- A call that fits is defined. -/
theorem exists_cipherStep {handler : SocketHandler η} {call : CipherCall}
    {before : Socket (TransmissionSecurity η)} (ready : before.sub.init = true)
    (fits : call.Fits handler before) : ∃ after, cipherStep handler call before = some after := by
  cases call with
  | onRead input chunk finish =>
      have read_ready : (before.emit (.kernelRead before.fd (.got chunk))).sub.init = true := ready
      obtain ⟨result, after, execution⟩ := exists_onRead read_ready
        (⟨fits.ciphertext, fits.plaintext, fits.answer⟩ : ReadFits handler input chunk finish
          (before.emit (.kernelRead before.fd (.got chunk))))
      exact ⟨after, by rw [cipherStep, execution]; rfl⟩
  | netRecv len => exact ⟨_, rfl⟩

/-- However the ciphertext is cut into reads, and whatever the library asks for in between, the
library gets it once and in order: each request is answered with just the bytes it asks for, next in
the stream, or with none exactly if fewer are waiting.  In every state reached, and after any
callbacks of the library from there, a request returns, stores, leaves behind and shows just this.
The calls return as long as there is room in the other queues, too. -/
theorem ciphertext_fed_in_order (handler : SocketHandler η)
    (start : Socket (TransmissionSecurity η)) (ready : start.sub.init = true)
    (small : start.sub.tlsRead.unread.length < 2 ^ 30) (calls : List CipherCall)
    (room : PartialRun.Guarded (cipherStep handler) CipherCall.Room calls start) :
    (∀ final, PartialRun.run (cipherStep handler) calls start = some final →
      (∃ shown, final.log = start.log ++ shown ∧
        shown.flatMap storedBy ++ final.sub.tlsRead.unread =
          start.sub.tlsRead.unread ++ shown.flatMap receivedBy ∧
        ∀ earlier event later, shown = earlier ++ event :: later →
          RightAnswer start.sub.tlsRead.unread earlier event) ∧
      ∀ net, (∃ shown, (netCalls net final).log = final.log ++ shown ∧
          shown.filterMap requestShown = net.filterMap requestOf) ∧
        ∀ len, Fetches len (netCalls net final)) ∧
    (PartialRun.Guarded (cipherStep handler) (CipherCall.Fits handler) calls start →
      ∃ final, PartialRun.run (cipherStep handler) calls start = some final) := by
  have initial : Fed start.log start.sub.tlsRead.unread start :=
    ⟨StreamStaged.start start, .start _ _, small, ready⟩
  constructor
  · intro final execution
    have fed : Fed start.log start.sub.tlsRead.unread final :=
      PartialRun.invariant_of_guarded (Fed start.log start.sub.tlsRead.unread)
        (fun _ _ _ fed room step => fed_cipherStep fed room step) execution room initial
    obtain ⟨shown, log_eq, conserved⟩ := fed.staged
    refine ⟨⟨shown, log_eq, conserved, ?_⟩, ?_⟩
    · rintro earlier event later rfl
      exact fed.answers earlier event later (by rw [log_eq, List.append_assoc])
    · intro net
      have called : Fed start.log start.sub.tlsRead.unread (netCalls net final) :=
        netCalls_keeps _ (fun call _ => fed_netCall call) net fed
      exact ⟨requestShown_netCalls net final, fun len => fetches_of_small len called.small⟩
  · intro fits
    obtain ⟨final, execution, -⟩ :=
      PartialRun.defined_of_guarded (Fed start.log start.sub.tlsRead.unread)
        (fun call before fed fits => by
          obtain ⟨after, step⟩ := exists_cipherStep fed.ready fits
          exact ⟨after, step, fed_cipherStep fed fits.room step⟩)
        calls fits initial
    exact ⟨final, execution⟩

/-- A flight of which the library fetches four bytes at once, then a request for more than is
left and one for the rest. -/
def requests : List CipherCall :=
  [.onRead (chunkThen errSslPeerCloseNotify) flight true, .netRecv 3, .netRecv 2]

theorem ciphertext_fed_in_order_requests :
    ∃ start, PartialRun.run (Socket.perform (socketClass SocketHandler.sink))
        (Socket.connectCalls shaking) (setSecurityLicence setUp (construct ())).2 = some start ∧
      start.sub.init = true ∧
      ∃ final, PartialRun.run (cipherStep SocketHandler.sink) requests start = some final ∧
        (∃ shown, final.log = start.log ++ shown ∧
          shown.flatMap storedBy ++ final.sub.tlsRead.unread =
            start.sub.tlsRead.unread ++ shown.flatMap receivedBy ∧
          ∀ earlier event later, shown = earlier ++ event :: later →
            RightAnswer start.sub.tlsRead.unread earlier event) ∧
        ∀ net, (∃ shown, (netCalls net final).log = final.log ++ shown ∧
            shown.filterMap requestShown = net.filterMap requestOf) ∧
          ∀ len, Fetches len (netCalls net final) := by
  obtain ⟨start, reached, -, ready, fits⟩ := connectCalls_roomy errSslPeerCloseNotify
  have small : start.sub.tlsRead.unread.length < 2 ^ 30 :=
    (Nat.le_add_right _ _).trans_lt fits.ciphertext
  obtain ⟨fed, returns⟩ := ciphertext_fed_in_order SocketHandler.sink start ready small requests
    ⟨fits.ciphertext, fun _ _ => ⟨trivial, fun _ _ => ⟨trivial, fun _ _ => trivial⟩⟩⟩
  obtain ⟨final, execution⟩ :=
    returns ⟨fits, fun _ _ => ⟨trivial, fun _ _ => ⟨trivial, fun _ _ => trivial⟩⟩⟩
  exact ⟨start, reached, ready, final, execution, fed final execution⟩

end TransmissionSecurity
end NetworkBase
