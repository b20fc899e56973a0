import NetworkBase.Dns.DnsProcess
import NetworkBase.Transport.Placement
import NetworkBase.Transport.TransmissionSecurity

/-!
# The sockets of a connector

A connector puts three kinds of sockets into its engine: plain and secured ones for its users, and
those of its resolutions, which answer to a `ConnectorDns`.
-/

namespace NetworkBase

/-- `ConnectorDns`. -/
structure ConnectorDns where
  connector : Nat
  deriving DecidableEq, Repr

/-- The members of the sockets the connector creates, over the handlers of its users. -/
inductive ConnectorSocket (η : Type)
  | transmission (members : Transmission η)
  | security (members : TransmissionSecurity η)
  | resolution (result : ConnectorDns) (members : Transmission DnsProtocolProcess)

/-- What the kernel and the library below a socket answer in one of its virtual methods. -/
structure ConnectorInput where
  write : WriteResult
  tls : TransmissionSecurity.TlsInput

namespace ConnectorSocket

variable {η α : Type}

/-- Call the method of the class of a socket. -/
def dispatch (onTransmission : Socket (Transmission η) → Option (Socket (Transmission η)))
    (onSecurity : Socket (TransmissionSecurity η) → Option (Socket (TransmissionSecurity η)))
    (onResolution : Socket (Transmission DnsProtocolProcess) →
      Option (Socket (Transmission DnsProtocolProcess)))
    (socket : Socket (ConnectorSocket η)) : Option (Socket (ConnectorSocket η)) :=
  match socket.sub with
  | .transmission members => socket.dispatch .transmission members onTransmission
  | .security members => socket.dispatch .security members onSecurity
  | .resolution result members => socket.dispatch (.resolution result) members onResolution

/-- Call a method with a value. -/
def dispatchValue
    (onTransmission : Socket (Transmission η) → Option (α × Socket (Transmission η)))
    (onSecurity : Socket (TransmissionSecurity η) → Option (α × Socket (TransmissionSecurity η)))
    (onResolution : Socket (Transmission DnsProtocolProcess) →
      Option (α × Socket (Transmission DnsProtocolProcess)))
    (socket : Socket (ConnectorSocket η)) : Option (α × Socket (ConnectorSocket η)) :=
  match socket.sub with
  | .transmission members => socket.dispatchValue .transmission members onTransmission
  | .security members => socket.dispatchValue .security members onSecurity
  | .resolution result members => socket.dispatchValue (.resolution result) members onResolution

theorem dispatch_within
    {onTransmission : Socket (Transmission η) → Option (Socket (Transmission η))}
    {onSecurity : Socket (TransmissionSecurity η) → Option (Socket (TransmissionSecurity η))}
    {onResolution : Socket (Transmission DnsProtocolProcess) →
      Option (Socket (Transmission DnsProtocolProcess))}
    {allowed : Event → Prop} (event : Event)
    (transmission_within : ∀ socket after, onTransmission socket = some after →
      Socket.SubSteps allowed (socket.emit event) after)
    (security_within : ∀ socket after, onSecurity socket = some after →
      Socket.SubSteps allowed (socket.emit event) after)
    (resolution_within : ∀ socket after, onResolution socket = some after →
      Socket.SubSteps allowed (socket.emit event) after)
    {socket after : Socket (ConnectorSocket η)}
    (execution : dispatch onTransmission onSecurity onResolution socket = some after) :
    Socket.SubSteps allowed (socket.emit event) after := by
  rw [dispatch] at execution
  split at execution
  · rename_i members sub_eq
    exact Socket.dispatch_within event sub_eq.symm transmission_within execution
  · rename_i members sub_eq
    exact Socket.dispatch_within event sub_eq.symm security_within execution
  · rename_i result members sub_eq
    exact Socket.dispatch_within event sub_eq.symm resolution_within execution

theorem dispatchValue_within
    {onTransmission : Socket (Transmission η) → Option (α × Socket (Transmission η))}
    {onSecurity : Socket (TransmissionSecurity η) → Option (α × Socket (TransmissionSecurity η))}
    {onResolution : Socket (Transmission DnsProtocolProcess) →
      Option (α × Socket (Transmission DnsProtocolProcess))}
    (allowed : Int → Event → Prop) {value : α}
    (transmission_within : ∀ socket after, onTransmission socket = some (value, after) →
      Socket.SubSteps (allowed socket.fd) socket after)
    (security_within : ∀ socket after, onSecurity socket = some (value, after) →
      Socket.SubSteps (allowed socket.fd) socket after)
    (resolution_within : ∀ socket after, onResolution socket = some (value, after) →
      Socket.SubSteps (allowed socket.fd) socket after)
    {socket after : Socket (ConnectorSocket η)}
    (execution : dispatchValue onTransmission onSecurity onResolution socket =
      some (value, after)) : Socket.SubSteps (allowed socket.fd) socket after := by
  rw [dispatchValue] at execution
  split at execution
  · rename_i members sub_eq
    exact Socket.dispatchValue_within sub_eq.symm (transmission_within _) execution
  · rename_i members sub_eq
    exact Socket.dispatchValue_within sub_eq.symm (security_within _) execution
  · rename_i result members sub_eq
    exact Socket.dispatchValue_within sub_eq.symm (resolution_within _) execution

/-- The virtual methods of the sockets of a connector, for a handler of its users, a value of
`ResponseParse` and the system time of the resolutions. -/
def socketClass (handler : SocketHandler η) (parse : List UInt8 → Int × List UInt8)
    (now : DnsProtocolProcess → Nat) : SocketClass (ConnectorSocket η) ConnectorInput where
  send data :=
    dispatchValue (Transmission.send data) (TransmissionSecurity.send data) (Transmission.send data)
  onConnect :=
    dispatch (Transmission.onConnect handler) (TransmissionSecurity.onConnect handler)
      (Transmission.onConnect (DnsProtocolProcess.handler parse now))
  onDisconnect :=
    dispatch (Transmission.onDisconnect handler) (TransmissionSecurity.onDisconnect handler)
      (Transmission.onDisconnect (DnsProtocolProcess.handler parse now))
  onRead input chunk finish :=
    dispatchValue (Transmission.onRead handler chunk finish)
      (TransmissionSecurity.onRead handler input.tls chunk finish)
      (Transmission.onRead (DnsProtocolProcess.handler parse now) chunk finish)
  onWrite input :=
    dispatchValue (Transmission.onWrite handler input.write)
      (TransmissionSecurity.onWrite handler input.tls)
      (Transmission.onWrite (DnsProtocolProcess.handler parse now) input.write)
  send_within data _ value _ :=
    dispatchValue_within (fun _ => Socket.quiet)
      (fun socket after => Transmission.send_within data socket value after)
      (fun socket after => TransmissionSecurity.send_within data socket value after)
      (fun socket after => Transmission.send_within data socket value after)
  onConnect_within _ _ :=
    dispatch_within .onConnect (Transmission.onConnect_within handler)
      (TransmissionSecurity.onConnect_within handler)
      (Transmission.onConnect_within (DnsProtocolProcess.handler parse now))
  onDisconnect_within _ _ :=
    dispatch_within .onDisconnect (Transmission.onDisconnect_within handler)
      (TransmissionSecurity.onDisconnect_within handler)
      (Transmission.onDisconnect_within (DnsProtocolProcess.handler parse now))
  onRead_within input chunk finish _ value _ :=
    dispatchValue_within Socket.serving
      (fun socket after => Transmission.onRead_within handler chunk finish socket value after)
      (fun socket after =>
        TransmissionSecurity.onRead_within handler input.tls chunk finish socket value after)
      (fun socket after => Transmission.onRead_within (DnsProtocolProcess.handler parse now) chunk
        finish socket value after)
  onWrite_within input _ value _ :=
    dispatchValue_within Socket.serving
      (fun socket after => Transmission.onWrite_within handler input.write socket value after)
      (fun socket after => TransmissionSecurity.onWrite_within handler input.tls socket value after)
      (fun socket after => Transmission.onWrite_within (DnsProtocolProcess.handler parse now)
        input.write socket value after)

end ConnectorSocket

end NetworkBase
