import NetworkBase.Connector
import NetworkBase.Dns.GenuineAnswers
import NetworkBase.Dns.PacketBounds

/-!
# From an answer to a connection

The text that `ResponseParse` leaves in `ip` travels through `OnResult` to `connectIp`, which drops
whatever `IpValid` does not accept.
-/

namespace NetworkBase
namespace DnsProtocol

/-- What the parser accepts is the text of four bytes. -/
theorem exists_dotted_of_accepted {fuel : Nat} {buffer : Nat → UInt8} {len : UInt32}
    {before ip : List UInt8} (accepted : responseParse fuel buffer len before = some (0, ip)) :
    ∃ a b c d, ip = dotted [a, b, c, d] := by
  rcases responseParse_cases accepted with failed | ⟨i, -, result_eq⟩
  · have codes : (0 : Int) = -1 := congrArg Prod.fst failed
    exact absurd codes (by decide)
  · exact ⟨_, _, _, _, congrArg Prod.snd result_eq⟩

/-- An address that `IpValid` accepts is handed to the socket that `Query` finds, and to nothing
else; a socket in `INIT` starts to connect. -/
theorem connectIp_takes_address {η τ : Type} {ip : List UInt8}
    (valid : SocketAssistant.ipValid ip = true) {connector : Connector η τ}
    {engine : Engine (ConnectorSocket η) τ} (running : connector.engine = some engine) {id : Nat}
    {socket : SocketPtr} (known : engine.sockets.find id = some socket) (thread : ThreadId)
    (port : UInt16) (now timeoutMs : Nat) :
    ∃ after next, connector.connectIp thread id ip port now timeoutMs = some after ∧
      after.engine = some next ∧ next.sockets = engine.sockets ∧
      (∀ other, other ≠ socket → next.heap other = engine.heap other) ∧
      (next.heap socket).ip = ip ∧ (next.heap socket).port = port ∧
      ((engine.heap socket).status = .init → (next.heap socket).status = .startConnect) := by
  have found : engine.query thread id =
      (some socket, (engine.lock thread).unlock thread) := by
    have locked : (engine.lock thread).sockets.find id = some socket := known
    rw [Engine.query, locked]
  obtain ⟨ip_eq, port_eq⟩ :=
    Socket.connect_address now timeoutMs ((engine.heap socket).setIpPort ip port)
  let started := ((engine.heap socket).setIpPort ip port).connect now timeoutMs
  have stored : (((engine.lock thread).unlock thread).store socket started).heap socket =
      started := if_pos rfl
  let next := ((engine.lock thread).unlock thread).store socket started
  refine ⟨{ connector with engine := some next }, next, ?_, rfl, rfl,
    fun other differs => if_neg differs, ?_, ?_, ?_⟩
  · rw [Connector.connectIp, if_pos valid, Connector.withSocket, running, Option.bind_eq_bind,
      Option.bind_some, found]
    rfl
  · rw [stored]
    exact ip_eq
  · rw [stored]
    exact port_eq
  · rw [stored]
    exact fun fresh => (Socket.connect_takes_address valid port now timeoutMs fresh).1

/-- `intToStr` leaves the canonical text of four bytes in its block, `IpValid` accepts this text and
reads the four bytes back, and so `connectIp` drops no address that `ResponseParse` accepts: the
socket that `Query` finds gets it with the port, and starts to connect if it is in `INIT`. -/
theorem resolved_address_usable (a b c d : UInt8) :
    intToStr [a, b, c, d] (List.replicate dnsLen 0) =
        some (dotted [a, b, c, d] ++ List.replicate (dnsLen - (dotted [a, b, c, d]).length) 0) ∧
      (dotted [a, b, c, d]).length < dnsLen ∧ 0 ∉ dotted [a, b, c, d] ∧
      (∀ byte ∈ [a, b, c, d], (decimal byte).head? = some 48 → byte = 0) ∧
      SocketAssistant.ipValid (dotted [a, b, c, d]) = true ∧
      (∀ overflow, SocketAssistant.scanParts overflow (dotted [a, b, c, d]) =
        some ((a.toNat : Int), (b.toNat : Int), (c.toNat : Int), (d.toNat : Int))) ∧
      ∀ fuel buffer len before ip, responseParse fuel buffer len before = some (0, ip) →
        ∀ (η τ : Type) (connector : Connector η τ) (engine : Engine (ConnectorSocket η) τ) id
          socket, connector.engine = some engine → engine.sockets.find id = some socket →
          ∀ thread port now timeoutMs, ∃ after next,
            connector.connectIp thread id ip port now timeoutMs = some after ∧
            after.engine = some next ∧ next.sockets = engine.sockets ∧
            (∀ other, other ≠ socket → next.heap other = engine.heap other) ∧
            (next.heap socket).ip = ip ∧ (next.heap socket).port = port ∧
            ((engine.heap socket).status = .init →
              (next.heap socket).status = .startConnect) := by
  have nonempty : [a, b, c, d] ≠ [] := List.cons_ne_nil a _
  have length_le := length_withDots_le [a, b, c, d]
  rw [withDots_eq nonempty, List.length_append] at length_le
  have room : (dotted [a, b, c, d]).length < dnsLen := by
    change _ < 32
    change _ ≤ 16 at length_le
    omega
  refine ⟨intToStr_eq nonempty (by decide : 4 * 4 < 32), room, zero_notMem_dotted nonempty,
    fun byte _ => canonical_decimal, ipValid_dotted a b c d,
    fun overflow => scanParts_dotted overflow a b c d, ?_⟩
  intro fuel buffer len before ip accepted η τ connector engine id socket running known
  obtain ⟨a', b', c', d', rfl⟩ := exists_dotted_of_accepted accepted
  exact connectIp_takes_address (ipValid_dotted a' b' c' d') running known

/-- A whole answer with the address 1.2.3.4, for the first socket of a library that runs. -/
theorem resolved_address_usable_wholeAnswer :
    ∃ ip, responseParse 2 (cutAddress [2, 3, 4]) 35 [] = some (0, ip) ∧
      ∃ connector, PartialRun.run (Connector.perform (ConnectorSocket.socketClass
          SocketHandler.sink (DnsProtocolProcess.parseWithin 64) fun _ => 0) Engine.idleMux)
          Connector.startAndCreate Connector.construct = some connector ∧
        ∃ engine, connector.engine = some engine ∧ engine.sockets.find 1 = some 3 ∧
          (engine.heap 3).status = .init ∧
          ∃ after next, connector.connectIp .worker 1 ip 80 0 5000 = some after ∧
            after.engine = some next ∧ (next.heap 3).status = .startConnect ∧
            (next.heap 3).ip = ip ∧ (next.heap 3).port = 80 := by
  have accepted : responseParse 2 (cutAddress [2, 3, 4]) 35 [] =
      some (0, dotted [1, 2, 3, 4]) := by decide +kernel
  obtain ⟨-, -, -, -, -, -, usable⟩ := resolved_address_usable 1 2 3 4
  obtain ⟨connector, reached, engine, running, known, fresh⟩ :
      ∃ connector, PartialRun.run (Connector.perform (ConnectorSocket.socketClass
          SocketHandler.sink (DnsProtocolProcess.parseWithin 64) fun _ => 0) Engine.idleMux)
          Connector.startAndCreate Connector.construct = some connector ∧
        ∃ engine, connector.engine = some engine ∧ engine.sockets.find 1 = some 3 ∧
          (engine.heap 3).status = .init := ⟨_, rfl, _, rfl, rfl, rfl⟩
  obtain ⟨after, next, connects, after_eq, -, -, ip_eq, port_eq, starts⟩ :=
    usable 2 _ 35 [] _ accepted Unit Unit connector engine 1 3 running known .worker 80 0 5000
  exact ⟨_, accepted, connector, reached, engine, running, known, fresh, after, next, connects,
    after_eq, starts fresh, ip_eq, port_eq⟩

end DnsProtocol
end NetworkBase
