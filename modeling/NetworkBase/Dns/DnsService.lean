import NetworkBase.Dns.DnsProcess
import NetworkBase.Engine.Engine
import NetworkBase.Transport.Placement

/-!
# The resolver service

The service reads the name servers of the system once and resolves every name with the first of
them.  What the file system answers and which object the allocator hands out are inputs.
-/

namespace NetworkBase

/-- `/etc/resolv.conf`: the size that was found for it, and the bytes that were then read. -/
structure ResolvConf where
  size : UInt32
  read : List UInt8
  deriving DecidableEq, Repr

/-- `DnsService`. -/
structure DnsService where
  init : Bool
  nameService : List (List UInt8)
  deriving DecidableEq, Repr

/-- What is decided outside the service while one name is resolved: the object the allocator hands
out, the system time whenever it is asked for, and what the kernel says to the wake-up byte. -/
structure ResolveInput where
  socket : SocketPtr
  now : Nat
  later : Nat
  wake : WriteResult
  deriving DecidableEq, Repr

namespace DnsService

/-- The constructor. -/
def construct : DnsService where
  init := false
  nameService := []

/-- `strtok_r` with blanks and tabs: the next token and the text behind its delimiter. -/
def strtok (text : List UInt8) : Option (List UInt8 × List UInt8) :=
  let delims (char : UInt8) : Bool := char = 32 ∨ char = 9
  let start := text.dropWhile delims
  if start = [] then none
  else some (start.takeWhile (! delims ·), (start.dropWhile (! delims ·)).tail)

/-- The keyword `nameserver`. -/
def nameserver : List UInt8 := [110, 97, 109, 101, 115, 101, 114, 118, 101, 114]

/-- `resolvConfParseLine`.  The other keywords lead to nothing. -/
def resolvConfParseLine (start : List UInt8) (service : DnsService) : DnsService :=
  match strtok start with
  | none => service
  | some (firstToken, state) =>
      if firstToken = nameserver then
        match strtok state with
        | none => service
        | some (name, _) => { service with nameService := service.nameService ++ [name] }
      else
        service

/-- `resolvConfParse`, on the list of the lines.  They end at newlines, and the text ends at the
first NUL; `ResolvConf.resolvConfParse` cuts it up in its block. -/
def resolvConfParse (file : Option ResolvConf) (service : DnsService) : DnsService :=
  match file with
  | none => service
  | some file =>
      if file.size = 0 then
        service
      else if UInt32.ofNat file.read.length ≠ file.size then
        service
      else
        ((SocketAssistant.cStr file.read).splitOn 10).foldl
          (fun service line => resolvConfParseLine line service) service

/-- The name server that is asked where none is configured, 223.5.5.5. -/
def defaultNameService : List UInt8 := [50, 50, 51, 46, 53, 46, 53, 46, 53]

/-- `checkDnsNameService`. -/
def checkDnsNameService (service : DnsService) : DnsService :=
  if service.nameService.isEmpty then
    { service with nameService := service.nameService ++ [defaultNameService] }
  else
    service

/-- `Start`. -/
def start (file : Option ResolvConf) (service : DnsService) : DnsService :=
  checkDnsNameService (resolvConfParse file service)

section Resolve

variable {σ τ : Type} (place : Transmission DnsProtocolProcess → σ)

/-- The private `getAddrInfo`; `place` says where the members of the new socket are. -/
def getAddrInfoFrom (nameService addr : List UInt8) (port : UInt16) (timeoutMs : Nat)
    (input : ResolveInput) (engine : Engine σ τ) : Engine σ τ :=
  let trans :=
    DnsProtocolProcess.getAddrInfo nameService addr port timeoutMs input.now input.later
  ((engine.store input.socket (trans.placed place)).add .other input.socket input.wake).2

/-- `GetAddrInfo`, undefined without a name server. -/
def getAddrInfo (addr : List UInt8) (port : UInt16) (timeoutMs : Nat) (input : ResolveInput)
    (engine : Engine σ τ) (service : DnsService) : Option (Engine σ τ) :=
  if ¬service.init then
    some engine
  else
    match service.nameService with
    | [] => none
    | nameService :: _ =>
        some (getAddrInfoFrom place nameService addr port timeoutMs input engine)

end Resolve

/-! ## What `Start` leaves behind -/

theorem init_resolvConfParseLine (start : List UInt8) (service : DnsService) :
    (resolvConfParseLine start service).init = service.init := by
  simp only [resolvConfParseLine]
  split
  · rfl
  split
  · split
    · rfl
    · rfl
  · rfl

/-- Reading the configuration adds name servers at most. -/
theorem init_resolvConfParse (file : Option ResolvConf) (service : DnsService) :
    (resolvConfParse file service).init = service.init := by
  have lines : ∀ (texts : List (List UInt8)) (service : DnsService),
      (texts.foldl (fun service line => resolvConfParseLine line service) service).init =
        service.init := by
    intro texts
    induction texts with
    | nil => exact fun _ => rfl
    | cons text texts ih =>
        exact fun service => (ih _).trans (init_resolvConfParseLine text service)
  simp only [resolvConfParse]
  split
  · rfl
  split
  · rfl
  split
  · rfl
  · exact lines _ service

/-- `Start` does not mark the service as initialized. -/
@[simp]
theorem init_start (file : Option ResolvConf) (service : DnsService) :
    (start file service).init = service.init := by
  rw [start, checkDnsNameService]
  split
  · exact init_resolvConfParse file service
  · exact init_resolvConfParse file service

/-- After `Start` there is a name server to ask. -/
theorem nameService_start (file : Option ResolvConf) (service : DnsService) :
    (start file service).nameService ≠ [] := by
  rw [start, checkDnsNameService]
  split
  · exact List.append_ne_nil_of_right_ne_nil _ (List.cons_ne_nil _ _)
  · rename_i configured
    exact fun empty => configured (List.isEmpty_iff.mpr empty)

/-- The default name server is an address that `Connect` accepts. -/
theorem ipValid_defaultNameService : SocketAssistant.ipValid defaultNameService = true := by decide

end DnsService
end NetworkBase
