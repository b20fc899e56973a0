import NetworkBase.Transport.Socket

/-!
# Handlers and their calls back into the library

A handler is a table of callbacks over a state of its own.  A callback answers with the calls it
made on its socket while it ran; its socket performs them in that order.  As the state is
arbitrary, the calls may depend on everything the handler has seen.
-/

namespace NetworkBase

/-- A call of a public method of a socket. -/
inductive PublicCall
  | send (data : CharSpan)
  | close
  | connect (now timeoutMs : Nat)
  | setProtocol (protocol : Int)
  | setIpPort (ip : List UInt8) (port : UInt16)
  deriving DecidableEq, Repr

/-- `SocketHandler`. -/
structure SocketHandler (η : Type) where
  onConnect : η → List PublicCall × η
  onDisconnect : η → List PublicCall × η
  /-- The value of `OnData` for an offer, with the calls made meanwhile. -/
  onData : List UInt8 → η → Int × List PublicCall × η
  onWrite : η → List PublicCall × η

namespace SocketHandler

/-- Every `OnData` reports that the whole offer was consumed. -/
def ConsumesAll {η : Type} (handler : SocketHandler η) : Prop :=
  ∀ offer state, (handler.onData offer state).1 = offer.length

/-- The handler that consumes everything and calls nothing. -/
def sink : SocketHandler Unit where
  onConnect _ := ([], ())
  onDisconnect _ := ([], ())
  onData offer _ := (offer.length, [], ())
  onWrite _ := ([], ())

theorem sink_consumesAll : sink.ConsumesAll := fun _ _ => rfl

end SocketHandler

namespace Socket

variable {σ : Type}

/-- Perform the calls of a callback, with the `Send` of the subclass. -/
def callBack (send : CharSpan → Socket σ → Option (Int × Socket σ)) :
    List PublicCall → Socket σ → Option (Socket σ)
  | [], socket => some socket
  | .send data :: calls, socket => do
      let (_, socket) ← send data socket
      callBack send calls socket
  | .close :: calls, socket => callBack send calls socket.close
  | .connect now timeoutMs :: calls, socket =>
      callBack send calls (socket.connect now timeoutMs)
  | .setProtocol protocol :: calls, socket => callBack send calls (socket.setProtocol protocol)
  | .setIpPort ip port :: calls, socket => callBack send calls (socket.setIpPort ip port)

/-- What `Send` and the other public methods preserve, the calls of a callback preserve. -/
theorem callBack_preserves {send : CharSpan → Socket σ → Option (Int × Socket σ)}
    (inv : Socket σ → Prop)
    (send_inv : ∀ data before result after,
      inv before → send data before = some (result, after) → inv after)
    (close_inv : ∀ socket, inv socket → inv socket.close)
    (connect_inv : ∀ now timeoutMs socket, inv socket → inv (socket.connect now timeoutMs))
    (setProtocol_inv : ∀ protocol socket, inv socket → inv (socket.setProtocol protocol))
    (setIpPort_inv : ∀ ip port socket, inv socket → inv (socket.setIpPort ip port))
    {calls : List PublicCall} {before after : Socket σ}
    (execution : callBack send calls before = some after) (initial : inv before) : inv after := by
  induction calls generalizing before with
  | nil =>
      cases execution
      exact initial
  | cons call calls ih =>
      cases call with
      | send data =>
          rw [callBack, Option.bind_eq_bind, Option.bind_eq_some_iff] at execution
          obtain ⟨⟨result, middle⟩, sent, rest⟩ := execution
          exact ih rest (send_inv data before result middle initial sent)
      | close => exact ih execution (close_inv before initial)
      | connect now timeoutMs => exact ih execution (connect_inv now timeoutMs before initial)
      | setProtocol protocol => exact ih execution (setProtocol_inv protocol before initial)
      | setIpPort ip port => exact ih execution (setIpPort_inv ip port before initial)

/-- The calls of a callback stay within what a virtual method may do. -/
theorem callBack_within {send : CharSpan → Socket σ → Option (Int × Socket σ)}
    (send_within : ∀ data socket result after, send data socket = some (result, after) →
      SubSteps quiet socket after)
    {calls : List PublicCall} {before after : Socket σ}
    (execution : callBack send calls before = some after) : SubSteps quiet before after := by
  refine callBack_preserves (SubSteps quiet before) ?_ ?_ ?_ ?_ ?_ execution (SubSteps.refl _)
  · exact fun data middle result next steps sent =>
      steps.trans (send_within data middle result next sent)
  · exact fun socket steps => steps.trans (.single (.close socket))
  · exact fun now timeoutMs socket steps => steps.trans (.single (.connect socket now timeoutMs))
  · exact fun protocol socket steps => steps.trans (.single (.setProtocol socket protocol))
  · exact fun ip port socket steps => steps.trans (.single (.setIpPort socket ip port))

end Socket
end NetworkBase
