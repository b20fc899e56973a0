import NetworkBase.Dns.ResolvConf

/-!
# The configured name servers

What a configuration says is a matter of its lines and their words: the name servers are the second
words of the lines that begin with `nameserver`.
-/

namespace NetworkBase
namespace ResolvConf

/-! ## What a configuration says -/

/-- The words of a line. -/
def tokens (line : List UInt8) : List (List UInt8) := (line.splitOnP isDelim).filter (· ≠ [])

/-- The name server of a line. -/
def serverOf (line : List UInt8) : Option (List UInt8) :=
  match tokens line with
  | keyword :: name :: _ => if keyword = DnsService.nameserver then some name else none
  | _ => none

/-- The name servers of a configuration. -/
def servers (content : List UInt8) : List (List UInt8) := (content.splitOn 10).filterMap serverOf

/-- The name servers that are asked, the default one where none is configured. -/
def serversOrDefault (content : List UInt8) : List (List UInt8) :=
  if servers content = [] then [DnsService.defaultNameService] else servers content

variable {text : List UInt8}

/-! ## Tokens -/

theorem tokens_blank (blanks : List UInt8) (blank : ∀ char ∈ blanks, isDelim char = true) :
    tokens (blanks ++ text) = tokens text := by
  induction blanks with
  | nil => rfl
  | cons char blanks ih =>
      obtain ⟨first, later⟩ := List.forall_mem_cons.mp blank
      have nothing : ∀ char ∈ ([] : List UInt8), isDelim char = false :=
        fun _ mem => absurd mem List.not_mem_nil
      have cut := List.splitOnP_append_cons_of_forall_mem nothing char first (blanks ++ text)
      rw [← ih later, tokens, tokens, List.cons_append, ← List.nil_append (char :: _), cut,
        List.filter_cons_of_neg (by simp)]

theorem tokens_of_strtok_none (nothing : DnsService.strtok text = none) : tokens text = [] := by
  have blank : tokens (text ++ []) = tokens [] := tokens_blank text (blank_of_strtok nothing)
  rw [List.append_nil] at blank
  rw [blank]
  rfl

/-- The tokens of a line are found one by one. -/
theorem tokens_of_strtok {token rest : List UInt8}
    (found : DnsService.strtok text = some (token, rest)) : tokens text = token :: tokens rest := by
  obtain ⟨blanks, first, more, tail, rfl, rfl, blank, kept, ends⟩ := exists_split_of_strtok found
  have no_delim : ∀ char ∈ first :: more, isDelim char = false := by
    intro char mem
    simpa [inToken] using kept char mem
  rw [tokens_blank blanks blank]
  rcases ends with ⟨rfl, rfl⟩ | ⟨delim, rfl, is_delim⟩
  · rw [List.append_nil, tokens, List.splitOnP_eq_singleton no_delim]
    rfl
  · rw [tokens, tokens, List.splitOnP_append_cons_of_forall_mem no_delim delim is_delim,
      List.filter_cons_of_pos (by simp)]

/-- A line adds the name server it names. -/
theorem nameService_resolvConfParseLine (line : List UInt8) (service : DnsService) :
    (DnsService.resolvConfParseLine line service).nameService =
      service.nameService ++ (serverOf line).toList := by
  rw [DnsService.resolvConfParseLine, serverOf]
  cases first : DnsService.strtok line with
  | none => simp [tokens_of_strtok_none first]
  | some found =>
      obtain ⟨token, rest⟩ := found
      rw [tokens_of_strtok first]
      by_cases is_nameserver : token = DnsService.nameserver
      · cases second : DnsService.strtok rest with
        | none => simp [is_nameserver, second, tokens_of_strtok_none second]
        | some found =>
            obtain ⟨name, rest'⟩ := found
            simp [is_nameserver, second, tokens_of_strtok second]
      · cases tokens rest with
        | nil => simp [is_nameserver]
        | cons name names => simp [is_nameserver]

/-- The lines add the name servers they name, in their order. -/
theorem nameService_lines (lines : List (List UInt8)) (service : DnsService) :
    (lines.foldl (fun service line => DnsService.resolvConfParseLine line service)
      service).nameService = service.nameService ++ lines.filterMap serverOf := by
  induction lines generalizing service with
  | nil => exact (List.append_nil _).symm
  | cons line lines ih =>
      rw [List.foldl_cons, ih, nameService_resolvConfParseLine, List.append_assoc]
      cases named : serverOf line with
      | none => rw [List.filterMap_cons_none named, Option.toList_none, List.nil_append]
      | some name => rw [List.filterMap_cons_some named, Option.toList_some, List.singleton_append]

/-! ## After `Start` -/

/-- A file that is read successfully, as far as `fread` is asked to. -/
def ofContent (content : List UInt8) : ResolvConf where
  size := UInt32.ofNat content.length
  read := content.take (content.length % 2 ^ 32)

/-- `Start` leaves the configured name servers, or the default one. -/
structure Configured (content : List UInt8) (service : DnsService) : Prop where
  nameService_eq : service.nameService = serversOrDefault content
  nonempty : service.nameService ≠ []

theorem serversOrDefault_ne_nil (content : List UInt8) : serversOrDefault content ≠ [] := by
  rw [serversOrDefault]
  split
  · exact List.cons_ne_nil _ _
  · rename_i configured
    exact configured

/-- The service asks the configured name servers, or the default one. -/
theorem nameService_checkDnsNameService {content : List UInt8} {service : DnsService}
    (parsed : service.nameService = servers content) :
    (DnsService.checkDnsNameService service).nameService = serversOrDefault content := by
  rw [DnsService.checkDnsNameService, serversOrDefault, parsed]
  by_cases nothing : servers content = []
  · rw [nothing]
    simp
  · rw [if_neg (by simpa using nothing), if_neg nothing, parsed]

section Content

variable (content : List UInt8)

theorem size_ofContent : (ofContent content).size.toNat = content.length % 2 ^ 32 :=
  UInt32.toNat_ofNat'

theorem read_ofContent : (ofContent content).read.length = (ofContent content).size.toNat := by
  rw [size_ofContent]
  exact List.length_take_of_le (Nat.mod_le _ _)

/-- `Start` parses the list of the lines, unless the size is the largest number of 32 bits. -/
theorem exists_start (fits : content.length % 2 ^ 32 ≠ 2 ^ 32 - 1) (service : DnsService) :
    ∃ fuel, start fuel (some (ofContent content)) service =
      some (DnsService.start (some (ofContent content)) service) := by
  have size_eq := size_ofContent content
  obtain ⟨fuel, parsed⟩ := exists_resolvConfParse (read_ofContent content) (by omega) service
  exact ⟨fuel, by rw [start, parsed, DnsService.start, Option.map_some]⟩

theorem start_unique {fuel fuel' : Nat} {file : Option ResolvConf}
    {service started started' : DnsService} (first : start fuel file service = some started)
    (second : start fuel' file service = some started') : started = started' := by
  obtain ⟨parsed, parse, rfl⟩ := Option.map_eq_some_iff.mp first
  obtain ⟨parsed', parse', rfl⟩ := Option.map_eq_some_iff.mp second
  rw [resolvConfParse_unique parse parse']

/-- For the largest size `Start` runs over the block. -/
theorem start_of_largest (largest : content.length % 2 ^ 32 = 2 ^ 32 - 1) (fuel : Nat)
    (service : DnsService) : start fuel (some (ofContent content)) service = none := by
  have size_eq := size_ofContent content
  have read_length := read_ofContent content
  have nonempty : (ofContent content).read ≠ [] := by
    rintro nothing
    rw [nothing, List.length_nil] at read_length
    omega
  have is_largest : (ofContent content).size = 0xffffffff :=
    UInt32.toNat_inj.mp (by rw [size_eq, largest]; rfl)
  rw [start, resolvConfParse_of_largest is_largest nonempty, Option.map_none]

/-- The first `Start` leaves the name servers that the text it reads configures. -/
theorem nameService_start :
    (DnsService.start (some (ofContent content)) .construct).nameService =
      serversOrDefault (SocketAssistant.cStr (ofContent content).read) := by
  refine nameService_checkDnsNameService ?_
  have read_length := read_ofContent content
  rw [DnsService.resolvConfParse]
  by_cases empty : (ofContent content).size = 0
  · rw [empty] at read_length
    rw [List.eq_nil_of_length_eq_zero read_length]
    simp only [empty, if_true]
    rfl
  · have size_eq : UInt32.ofNat (ofContent content).read.length = (ofContent content).size := by
      rw [read_length, UInt32.ofNat_toNat]
    simp only [empty, if_false, size_eq, ne_eq, not_true]
    exact nameService_lines _ _

end Content

/-- The parse in place leaves what the configuration says, unless its size is the largest number of
32 bits. -/
theorem configured_iff (content : List UInt8) (plain : 0 ∉ content)
    (short : content.length < 2 ^ 32) :
    (∃ fuel service, start fuel (some (ofContent content)) .construct = some service ∧
      Configured content service) ↔ content.length ≠ 2 ^ 32 - 1 := by
  have small : content.length % 2 ^ 32 = content.length := Nat.mod_eq_of_lt short
  constructor
  · rintro ⟨fuel, service, started, -⟩ largest
    rw [start_of_largest content (small.trans largest)] at started
    contradiction
  · intro fits
    obtain ⟨fuel, started⟩ := exists_start content (by rwa [small]) .construct
    refine ⟨fuel, _, started, ?_⟩
    have read_eq : SocketAssistant.cStr (ofContent content).read = content := by
      have whole : content.take (content.length % 2 ^ 32) = content := by
        rw [small, List.take_length]
      rw [ofContent, whole]
      exact SocketAssistant.cStr_of_plain plain
    have servers_eq := nameService_start content
    rw [read_eq] at servers_eq
    exact ⟨servers_eq, servers_eq ▸ serversOrDefault_ne_nil content⟩

/-- Two lines, of which one names a server, with a tab behind the keyword. -/
theorem oneServer_configured :
    0 ∉ ([35, 10] ++ DnsService.nameserver ++ [9, 56, 46, 56] : List UInt8) ∧
      ([35, 10] ++ DnsService.nameserver ++ [9, 56, 46, 56] : List UInt8).length < 2 ^ 32 ∧
      ∃ fuel service, start fuel
        (some (ofContent ([35, 10] ++ DnsService.nameserver ++ [9, 56, 46, 56]))) .construct =
          some service ∧
        Configured ([35, 10] ++ DnsService.nameserver ++ [9, 56, 46, 56]) service :=
  ⟨by decide, by decide, (configured_iff _ (by decide) (by decide)).mpr (by decide)⟩

/-- A file of the largest size of 32 bits is not parsed: the block for it has no byte. -/
theorem largestFile_notParsed :
    ¬ ∀ content : List UInt8, 0 ∉ content → content.length < 2 ^ 32 →
      ∃ fuel service, start fuel (some (ofContent content)) .construct = some service ∧
        Configured content service := by
  intro parsed
  -- The list is never evaluated: its length has a name.
  obtain ⟨largest, largest_eq⟩ : ∃ largest, largest = 2 ^ 32 - 1 := ⟨_, rfl⟩
  have length_eq : (List.replicate largest (97 : UInt8)).length = 2 ^ 32 - 1 := by
    rw [List.length_replicate, largest_eq]
  have plain : (0 : UInt8) ∉ List.replicate largest 97 := fun mem =>
    absurd (List.eq_of_mem_replicate mem) (by decide)
  obtain ⟨fuel, service, started, -⟩ := parsed _ plain (by rw [length_eq]; decide)
  rw [start_of_largest _ (by rw [length_eq]; decide)] at started
  contradiction

/-! ## Asking the first name server -/

/-- The socket of a resolution waits to be connected, or it is still in `INIT`. -/
theorem status_getAddrInfo (server addr : List UInt8) (port : UInt16)
    (timeoutMs now later : Nat) :
    (DnsProtocolProcess.getAddrInfo server addr port timeoutMs now later).status =
      if SocketAssistant.ipValid server = true then .startConnect else .init := by
  rw [DnsProtocolProcess.getAddrInfo]
  split
  · rename_i valid
    exact (Socket.connect_takes_address valid DnsProtocolProcess.kDnsPort later timeoutMs rfl).1
  · rename_i invalid
    exact congrArg Socket.status (if_pos invalid)

/-- Whoever resolves a name hands the engine a socket that waits to be connected to the first name
server. -/
def Usable (service : DnsService) : Prop :=
  ∃ server rest, service.nameService = server :: rest ∧
    ∀ {σ τ : Type} (place : Transmission DnsProtocolProcess → σ) (addr : List UInt8)
      (port : UInt16) (timeoutMs : Nat) (input : ResolveInput) (engine : Engine σ τ),
      ((DnsService.getAddrInfoFrom place server addr port timeoutMs input engine).heap
        input.socket).status = .startConnect

theorem heap_getAddrInfoFrom {σ τ : Type} (place : Transmission DnsProtocolProcess → σ)
    (server addr : List UInt8) (port : UInt16) (timeoutMs : Nat) (input : ResolveInput)
    (engine : Engine σ τ) :
    (DnsService.getAddrInfoFrom place server addr port timeoutMs input engine).heap input.socket =
      (DnsProtocolProcess.getAddrInfo server addr port timeoutMs input.now input.later).placed
        place :=
  if_pos rfl

theorem usable_cons {service : DnsService} {server : List UInt8} {rest : List (List UInt8)}
    (asked : service.nameService = server :: rest) :
    Usable service ↔ SocketAssistant.ipValid server = true := by
  constructor
  · rintro ⟨server', rest', asked', waits⟩
    obtain ⟨rfl, -⟩ := List.cons.inj (asked.symm.trans asked')
    by_contra invalid
    have still := waits id [] 0 0 ⟨0, 0, 0, .accepts 0⟩
      (Engine.construct () fun _ => DnsProtocolProcess.getAddrInfo [] [] 0 0 0 0)
    rw [heap_getAddrInfoFrom] at still
    have status_eq := status_getAddrInfo server [] 0 0 0 0
    rw [if_neg invalid] at status_eq
    exact absurd (status_eq.symm.trans still) (by decide)
  · intro valid
    refine ⟨server, rest, asked, ?_⟩
    intro σ τ place addr port timeoutMs input engine
    rw [heap_getAddrInfoFrom]
    exact (status_getAddrInfo server addr port timeoutMs input.now input.later).trans
      (if_pos valid)

/-- The text that is parsed. -/
def parsedText (content : List UInt8) : List UInt8 :=
  SocketAssistant.cStr (content.take (content.length % 2 ^ 32))

/-- After `Start` it is the first name server of the configuration that decides. -/
theorem usable_of_started {content : List UInt8} {fuel : Nat} {service : DnsService}
    (started : start fuel (some (ofContent content)) .construct = some service) :
    Usable service ↔
      ∀ name ∈ (servers (parsedText content)).head?, SocketAssistant.ipValid name = true := by
  have fits : content.length % 2 ^ 32 ≠ 2 ^ 32 - 1 := by
    intro largest
    rw [start_of_largest content largest] at started
    contradiction
  obtain ⟨fuel', started'⟩ := exists_start content fits .construct
  have configured : service.nameService = serversOrDefault (parsedText content) := by
    rw [start_unique started started']
    exact nameService_start content
  rw [serversOrDefault] at configured
  cases named : servers (parsedText content) with
  | nil =>
      rw [if_pos named] at configured
      simp [usable_cons configured, DnsService.ipValid_defaultNameService]
  | cons name names =>
      rw [if_neg (by simp [named]), named] at configured
      simp [usable_cons configured]

/-- The first name server is usable exactly where `Start` can parse the configuration and the
address that it names first, if any, is one that `IpValid` accepts. -/
theorem usable_iff (content : List UInt8) :
    (∃ fuel service, start fuel (some (ofContent content)) .construct = some service ∧
      Usable service) ↔
      content.length % 2 ^ 32 ≠ 2 ^ 32 - 1 ∧
        ∀ name ∈ (servers (parsedText content)).head?, SocketAssistant.ipValid name = true := by
  constructor
  · rintro ⟨fuel, service, started, usable⟩
    refine ⟨?_, (usable_of_started started).mp usable⟩
    intro largest
    rw [start_of_largest content largest] at started
    contradiction
  · rintro ⟨fits, valid⟩
    obtain ⟨fuel, started⟩ := exists_start content fits .construct
    exact ⟨fuel, _, started, (usable_of_started started).mpr valid⟩

/-- The line `nameserver ::1`. -/
def loopbackLine : List UInt8 := DnsService.nameserver ++ [32, 58, 58, 49, 10]

/-- The server `::1` is not usable: the socket stays in `INIT`. -/
theorem loopbackLine_unusable :
    ¬ ∀ content, ∃ fuel service, start fuel (some (ofContent content)) .construct = some service ∧
      Usable service := by
  intro usable
  obtain ⟨fuel, service, started, asks⟩ := usable loopbackLine
  have servers_eq : servers (parsedText loopbackLine) = [[58, 58, 49]] := by decide
  have valid := (usable_of_started started).mp asks [58, 58, 49] (by rw [servers_eq]; rfl)
  exact absurd valid (by decide)

end ResolvConf
end NetworkBase
