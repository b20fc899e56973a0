import NetworkBase.Library.PartialRun
import NetworkBase.Library.MemoryBlock
import NetworkBase.Library.Ledger
import NetworkBase.Library.History
import NetworkBase.Library.OrderedMap
import NetworkBase.Library.WhileLoop
import NetworkBase.Library.Span
import NetworkBase.Library.Atomic
import NetworkBase.Library.Monitor
import NetworkBase.Library.Mutex
import NetworkBase.System.Thread
import NetworkBase.System.Lifecycle
import NetworkBase.Tool.AutoGrowBuffer
import NetworkBase.Tool.ByteQueue
import NetworkBase.Tool.LockedBuffer
import NetworkBase.Tool.BufferGrowth
import NetworkBase.Tool.SoundBuffer
import NetworkBase.Transport.SocketAssistant
import NetworkBase.Transport.AddressLiteral
import NetworkBase.Transport.Socket
import NetworkBase.Transport.Descriptor
import NetworkBase.Transport.SocketHandler
import NetworkBase.Transport.Placement
import NetworkBase.Transport.Transmission
import NetworkBase.Transport.StatusOrder
import NetworkBase.Transport.Callbacks
import NetworkBase.Transport.QueueStream
import NetworkBase.Transport.SendStream
import NetworkBase.Transport.ReadStream
import NetworkBase.Transport.OfferStream
import NetworkBase.Transport.TransmissionSecurity
import NetworkBase.Transport.RecordStream
import NetworkBase.Transport.Sheltered
import NetworkBase.Transport.PlaintextStream
import NetworkBase.Transport.CipherStream
import NetworkBase.Transport.EncryptStream
import NetworkBase.Transport.Writability
import NetworkBase.Transport.ReadAlike
import NetworkBase.Transport.WouldBlock
import NetworkBase.Transport.WouldBlockSecurity
import NetworkBase.Engine.Multiplexing
import NetworkBase.Engine.BuildAgreement
import NetworkBase.Engine.SelectHistory
import NetworkBase.Engine.SocketPair
import NetworkBase.Engine.PairQueues
import NetworkBase.Engine.Engine
import NetworkBase.Engine.Steps
import NetworkBase.Engine.Scan
import NetworkBase.Engine.Observation
import NetworkBase.Engine.Disconnects
import NetworkBase.Engine.LockDiscipline
import NetworkBase.Engine.Stages
import NetworkBase.Engine.WakeUp
import NetworkBase.Engine.Blocking
import NetworkBase.Engine.Unserved
import NetworkBase.Engine.Identifiers
import NetworkBase.Engine.Registry
import NetworkBase.Engine.Descriptors
import NetworkBase.Engine.ShortAddress
import NetworkBase.Engine.Hanging
import NetworkBase.Engine.Builds
import NetworkBase.Engine.Projection
import NetworkBase.Dns.DnsProtocol
import NetworkBase.Dns.DnsProcess
import NetworkBase.Dns.DnsService
import NetworkBase.Dns.ResolvConf
import NetworkBase.Dns.NameServers
import NetworkBase.Dns.DottedDecimal
import NetworkBase.Dns.Response
import NetworkBase.Dns.AddressText
import NetworkBase.Dns.AnswerWalk
import NetworkBase.Dns.DerailedWalk
import NetworkBase.Dns.RequestScan
import NetworkBase.Dns.Queries
import NetworkBase.Dns.Exchange
import NetworkBase.Dns.WalkPositions
import NetworkBase.Dns.Termination
import NetworkBase.Dns.PacketBounds
import NetworkBase.Dns.GenuineAnswers
import NetworkBase.Dns.PlainPackets
import NetworkBase.Dns.PlainAnswers
import NetworkBase.ConnectorSocket
import NetworkBase.Connector
import NetworkBase.UserCallbacks
import NetworkBase.AddressRoutes
import NetworkBase.Dns.ResolvedAddress
