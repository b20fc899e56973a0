import NetworkBase.Connector
import NetworkBase.Transport.AddressLiteral

/-!
# Where a connect goes

`Connect` takes what `IpValid` accepts for an address and resolves everything else as a name.
-/

namespace NetworkBase

open SocketAssistant (Ipv4Literal Overread ipValidWith intOverflow)

namespace Connector

variable {η τ : Type}

/-- `Connect` to an address. -/
def toAddress (id : Nat) (addr : List UInt8) (port : UInt16) (timeoutMs : Nat)
    (input : ResolveInput) (connector : Connector η τ) : Option (Connector η τ) :=
  connector.withSocket .other id fun socket =>
    some ((socket.setIpPort addr port).connect input.now timeoutMs)

/-- `Connect` to a name. -/
def toName (id : Nat) (addr : List UInt8) (port : UInt16) (timeoutMs : Nat) (input : ResolveInput)
    (connector : Connector η τ) : Option (Connector η τ) := do
  let service ← connector.dns
  let engine ← connector.engine
  let engine ←
    service.getAddrInfo (ConnectorSocket.resolution ⟨id⟩) addr port timeoutMs input engine
  some { connector with engine := some engine }

theorem connect_of_running {connector : Connector η τ} (running : connector.init = true) (id : Nat)
    (addr : List UInt8) (port : UInt16) (timeoutMs : Nat) (input : ResolveInput) :
    connector.connect id addr port timeoutMs input =
      if SocketAssistant.ipValid addr then connector.toAddress id addr port timeoutMs input
      else connector.toName id addr port timeoutMs input := by
  rw [connect, if_neg (not_not.mpr running)]
  rfl

/-- A literal is connected to at the address it spells, and every other text goes to the resolver
service. -/
structure Routed (addr : List UInt8) : Prop where
  named : (¬∃ literal : Ipv4Literal, addr = literal.text) →
    ∀ (η τ : Type) (connector : Connector η τ) id port timeoutMs input, connector.init = true →
      connector.connect id addr port timeoutMs input =
        connector.toName id addr port timeoutMs input
  addressed : (∃ literal : Ipv4Literal, addr = literal.text) →
    ∀ (η τ : Type) (connector : Connector η τ) id port timeoutMs input, connector.init = true →
      connector.connect id addr port timeoutMs input =
        connector.toAddress id addr port timeoutMs input
  takenOn : (∃ literal : Ipv4Literal, addr = literal.text) →
    ∀ (σ : Type) (socket : Socket σ) port now timeoutMs, socket.status = .init →
      ((socket.setIpPort addr port).connect now timeoutMs).status = .startConnect
  spelled : ∀ literal : Ipv4Literal, addr = literal.text →
    ∀ (σ : Type) (socket : Socket σ) kernel, socket.ip = addr →
      socket.connectAnswer kernel =
        kernel.connect socket.fd { sinAddr := literal.address, sinPort := socket.port }
          (if sizeofSockAddrIn < 0 then 1 else 0)

/-- A connector that runs, with a service that is not initialized. -/
def running : Connector Unit Unit where
  init := true
  engine := some (.construct () fun _ => (Transmission.construct ()).placed .transmission)
  dns := some .construct
  reports := []

/-- The number of events in the trace of the engine. -/
def traceLength (result : Option (Connector η τ)) : Option Nat :=
  result.bind fun connector => connector.engine.map fun engine => engine.trace.length

/-- Connecting to an address looks its socket up, and resolving a name does not. -/
theorem toAddress_ne_toName (addr : List UInt8) (input : ResolveInput) :
    running.toAddress 1 addr 80 0 input ≠ running.toName 1 addr 80 0 input := by
  intro same
  have looked_up : traceLength (running.toAddress 1 addr 80 0 input) = some 2 := rfl
  have untouched : traceLength (running.toName 1 addr 80 0 input) = some 0 := rfl
  rw [same, untouched] at looked_up
  exact absurd looked_up (by decide)

/-- A kernel that only takes connections to one address. -/
def onlyTo (address : UInt32) : ConnectKernel where
  socket _ := 3
  fcntl := { getfl := fun _ => some 0, setfl := fun _ _ => true }
  connect _ name _ := if name.sinAddr = address then .ok else .failed .einval

/-- Connects go where they should unless `IpValid` accepts more than a literal, or `inet_addr` reads
another address. -/
theorem routed_iff (addr : List UInt8) :
    Routed addr ↔ ¬Overread intOverflow addr ∧
      ∀ literal : Ipv4Literal, addr = literal.text → ∀ group ∈ literal.groups,
        group.chars.head? = some 48 → group.value < 8 := by
  constructor
  · intro routed
    constructor
    · rw [← SocketAssistant.ipValidWith_iff_literal]
      refine ⟨fun valid => ?_, ?_⟩
      · by_contra named
        have taken : SocketAssistant.ipValid addr = true := valid
        have same := routed.named named Unit Unit running 1 80 0 ⟨3, 0, 0, .accepts 1⟩ rfl
        rw [connect_of_running rfl, if_pos taken] at same
        exact toAddress_ne_toName addr _ same
      · rintro ⟨literal, rfl⟩
        exact literal.valid intOverflow
    · intro literal spelled
      rw [← SocketAssistant.inetAddr_iff]
      have same := routed.spelled literal spelled Unit
        { Socket.construct () with ip := addr } (onlyTo literal.address) rfl
      by_contra other
      rw [Socket.connectAnswer, spelled] at same
      exact absurd same (by simp [onlyTo, other])
  · rintro ⟨exact_match, decimal⟩
    have accepts := (SocketAssistant.ipValidWith_iff_literal intOverflow addr).mpr exact_match
    constructor
    · intro named η τ connector id port timeoutMs input running
      exact (connect_of_running running id addr port timeoutMs input).trans
        (if_neg fun valid => named (accepts.mp valid))
    · intro literal η τ connector id port timeoutMs input running
      exact (connect_of_running running id addr port timeoutMs input).trans
        (if_pos (accepts.mpr literal))
    · intro literal σ socket port now timeoutMs fresh
      exact (Socket.connect_takes_address (accepts.mpr literal) port now timeoutMs fresh).1
    · rintro literal rfl σ socket kernel ip_eq
      have read := (SocketAssistant.inetAddr_iff literal).mpr (decimal literal rfl)
      rw [Socket.connectAnswer, ip_eq, read]

/-- Whatever `sscanf` stores for a group outside `int`, `IpValid` accepts exactly the literals
unless digits and dots follow an accepted one or such a group is stored as a small number; and
connects go where the text says unless that happens or a group with a leading zero is above
seven. -/
theorem accepts_literals_iff (addr : List UInt8) :
    (∀ overflow,
      (ipValidWith overflow addr = true ↔ ∃ literal : Ipv4Literal, addr = literal.text) ↔
        ¬Overread overflow addr) ∧
      (Routed addr ↔ ¬Overread intOverflow addr ∧
        ∀ literal : Ipv4Literal, addr = literal.text → ∀ group ∈ literal.groups,
          group.chars.head? = some 48 → group.value < 8) :=
  ⟨fun overflow => SocketAssistant.ipValidWith_iff_literal overflow addr, routed_iff addr⟩

/-- The groups 1.2.3.4. -/
def fourGroups : SocketAssistant.Quad where
  a := ⟨[49], by decide, List.forall_mem_singleton.mpr rfl⟩
  b := ⟨[50], by decide, List.forall_mem_singleton.mpr rfl⟩
  c := ⟨[51], by decide, List.forall_mem_singleton.mpr rfl⟩
  d := ⟨[52], by decide, List.forall_mem_singleton.mpr rfl⟩

/-- The text 1.2.3.4.5 is accepted and connected to, but it is not a literal. -/
theorem fiveGroups_accepted :
    SocketAssistant.ipValid (fourGroups.text ++ [46, 53]) = true ∧
      (¬∃ literal : Ipv4Literal, fourGroups.text ++ [46, 53] = literal.text) ∧
      ¬Routed (fourGroups.text ++ [46, 53]) := by
  have accepted : SocketAssistant.ipValid (fourGroups.text ++ [46, 53]) = true := by decide
  have named : ¬∃ literal : Ipv4Literal, fourGroups.text ++ [46, 53] = literal.text := by
    rintro ⟨literal, same⟩
    rw [← List.append_nil literal.text] at same
    exact absurd (SocketAssistant.Quad.unique (SocketAssistant.ends_dot _) Span.stops_nil same).2
      (by decide)
  refine ⟨accepted, named, fun routed => ?_⟩
  have exact_match := (SocketAssistant.ipValidWith_iff_literal intOverflow _).mpr
    ((routed_iff _).mp routed).1
  exact named (exact_match.mp accepted)

end Connector
end NetworkBase
