import ReticulumSdk.Base.Checked
import ReticulumSdk.Base.Clock
import ReticulumSdk.Base.Run
import ReticulumSdk.Base.Table
import ReticulumSdk.Base.TextLines
import ReticulumSdk.Base.FloatText
import ReticulumSdk.Base.Index
import ReticulumSdk.Base.Sha256
import ReticulumSdk.Base.Hkdf
import ReticulumSdk.Base.Slots
import ReticulumSdk.Base.Msgpack
import ReticulumSdk.Base.MsgpackFormat
import ReticulumSdk.Error
import ReticulumSdk.Hash
import ReticulumSdk.Packet
import ReticulumSdk.Cipher
import ReticulumSdk.Link.State
import ReticulumSdk.Resource.State
import ReticulumSdk.Resource.Receiver
import ReticulumSdk.Resource.Sender
import ReticulumSdk.Resource.Timeout
import ReticulumSdk.Resource.FlowLaws
import ReticulumSdk.Resource.Session
import ReticulumSdk.Resource.ReceiverLaws
import ReticulumSdk.Resource.SenderLaws
import ReticulumSdk.Resource.StateLaws
import ReticulumSdk.Resource.AnswerLaws
import ReticulumSdk.Resource.Bookkeeping
import ReticulumSdk.Resource.Safety
import ReticulumSdk.Resource.Terminal
import ReticulumSdk.Resource.SessionLaws
import ReticulumSdk.Resource.RequestLaws
import ReticulumSdk.Resource.Delivery
import ReticulumSdk.Resource.Ordering
import ReticulumSdk.Resource.InOrder
import ReticulumSdk.Resource.LateRequests
import ReticulumSdk.Channel.Inbound
import ReticulumSdk.Channel.Delivery
import ReticulumSdk.Channel.Outbound
import ReticulumSdk.Channel.OutboundLaws
import ReticulumSdk.Channel.FlowControl
import ReticulumSdk.Channel.Tracking
import ReticulumSdk.Channel.Status
import ReticulumSdk.Base.Reassembly
import ReticulumSdk.Link.Reorder
import ReticulumSdk.Link.ReorderLaws
import ReticulumSdk.Link.Lossless
import ReticulumSdk.Crypt.Fernet
import ReticulumSdk.Link.Payload
import ReticulumSdk.Link.Establish
import ReticulumSdk.Transport.LinkTable
import ReticulumSdk.Link.Machine
import ReticulumSdk.Transport.Caches
import ReticulumSdk.Transport.Handler
import ReticulumSdk.Transport.Requests
import ReticulumSdk.Base.Chain
import ReticulumSdk.Transport.RelayChain
import ReticulumSdk.Transport.LinkTableLaws
import ReticulumSdk.Link.MachineLaws
import ReticulumSdk.Transport.HandlerLaws
import ReticulumSdk.Transport.RelayData
import ReticulumSdk.Transport.RelayProofs
import ReticulumSdk.Transport.Receive
import ReticulumSdk.Transport.Dispatch
import ReticulumSdk.Transport.Retransmission
import ReticulumSdk.Transport.Tracking
import ReticulumSdk.Transport.Receipts
import ReticulumSdk.Serde
import ReticulumSdk.SerdeLaws
import ReticulumSdk.Transport.Rewrites
import ReticulumSdk.Transport.ReturnProofs
import ReticulumSdk.Link.Lifecycle
import ReticulumSdk.Link.Effects
import ReticulumSdk.Transport.LinkMtu
import ReticulumSdk.Transport.MtuAgreement
import ReticulumSdk.Transport.Blackhole
import ReticulumSdk.Transport.PeerFloats
import ReticulumSdk.Crypt.Identity
import ReticulumSdk.Destination.Announce
import ReticulumSdk.Destination.Ratchet
import ReticulumSdk.Link.Timers
import ReticulumSdk.Link.Binding
import ReticulumSdk.Transport.LinkEnds
import ReticulumSdk.Transport.OwnLinks
import ReticulumSdk.Transport.OwnLinksLaws
import ReticulumSdk.Transport.LinkTables
import ReticulumSdk.Transport.Copies
import ReticulumSdk.Link.Staleness
import ReticulumSdk.Base.FloatOrder
import ReticulumSdk.Base.Framing
import ReticulumSdk.Transport.PathTable
import ReticulumSdk.Transport.AnnounceFormat
import ReticulumSdk.Transport.PathTableLaws
import ReticulumSdk.Transport.Freshness
import ReticulumSdk.Base.History
import ReticulumSdk.Transport.PathCopies
import ReticulumSdk.Transport.BlobHistory
import ReticulumSdk.Transport.AnnounceTable
import ReticulumSdk.Transport.AnnounceTableLaws
import ReticulumSdk.Transport.AnnounceRuns
import ReticulumSdk.Transport.PathResponses
import ReticulumSdk.Transport.Rebroadcasts
import ReticulumSdk.Transport.AnnounceLimits
import ReticulumSdk.Transport.PathRequests
import ReticulumSdk.Transport.Announces
import ReticulumSdk.Transport.AnnounceLaws
import ReticulumSdk.Transport.Propagation
import ReticulumSdk.Transport.RemoteRatchets
import ReticulumSdk.Transport.ClientForwarding
import ReticulumSdk.Iface.Hdlc
import ReticulumSdk.Iface.Ifac
import ReticulumSdk.Iface.IfacLaws
import ReticulumSdk.Iface.TcpClient
import ReticulumSdk.Iface.TcpClientLaws
import ReticulumSdk.Iface.StreamDelivery
import ReticulumSdk.Iface.Serial
import ReticulumSdk.Iface.Resync
import ReticulumSdk.Iface.RuntimeConfig
import ReticulumSdk.Transport.Rediscovery
import ReticulumSdk.Transport.RediscoveryLaws
import ReticulumSdk.Transport.DeadInterface
import ReticulumSdk.Transport.NodeCalls
import ReticulumSdk.Transport.NodeCallLaws
import ReticulumSdk.Transport.ArchiveRebroadcast
import ReticulumSdk.Transport.Discovery
import ReticulumSdk.Transport.DiscoveryStamps
import ReticulumSdk.Transport.DiscoveryEntries
import ReticulumSdk.Transport.DiscoveryJob
import ReticulumSdk.Transport.DiscoveryReading
import ReticulumSdk.Transport.DiscoveryRota
import ReticulumSdk.Transport.PlainBroadcasts
import ReticulumSdk.Transport.HopLimit
import ReticulumSdk.Transport.BlackholeExclusion
import ReticulumSdk.Base.Selection
import ReticulumSdk.Transport.PacketCacheLaws
import ReticulumSdk.Base.Gate
import ReticulumSdk.Transport.PathRequestGate
import ReticulumSdk.Transport.PathRequestRelay
import ReticulumSdk.Link.Awaited
import ReticulumSdk.Transport.UsableLinks
import ReticulumSdk.Base.Feeding
import ReticulumSdk.Iface.Kiss
import ReticulumSdk.Iface.Lora
import ReticulumSdk.Base.Standing
import ReticulumSdk.Transport.BlackholeQueries
import ReticulumSdk.Iface.ReconnectPacer
import ReticulumSdk.Iface.ReconnectPacerLaws
import ReticulumSdk.Iface.AnnouncePacer
import ReticulumSdk.Iface.AnnouncePacerLaws
import ReticulumSdk.Base.FloatRounding
import ReticulumSdk.Base.Seconds
import ReticulumSdk.Transport.BlackholePublishing
import ReticulumSdk.Iface.Masking
import ReticulumSdk.Iface.FrameSizes
import ReticulumSdk.Iface.WholeFrames
import ReticulumSdk.Base.Interrupted
import ReticulumSdk.Iface.IdleTimers
import ReticulumSdk.Resource.Naming
import ReticulumSdk.Resource.Advertisement
import ReticulumSdk.Resource.AdvertisementLaws
import ReticulumSdk.Resource.AdvertisementSize
import ReticulumSdk.Resource.AdvertisedNumbers
import ReticulumSdk.Link.ChannelSend
import ReticulumSdk.Crypt.ShortBuffers
import ReticulumSdk.Rpc.Pickle
import ReticulumSdk.Rpc.PickleLaws
import ReticulumSdk.Base.Prefixed
import ReticulumSdk.Rpc.Frames
import ReticulumSdk.Rpc.Session
import ReticulumSdk.Rpc.SessionLaws
import ReticulumSdk.Base.Positions
import ReticulumSdk.Base.Window
import ReticulumSdk.Iface.IngressBurst
import ReticulumSdk.Iface.IngressBurstLaws
import ReticulumSdk.Iface.Manager
import ReticulumSdk.Iface.ManagerRuns
import ReticulumSdk.Iface.ManagerModes
import ReticulumSdk.Iface.ManagerPacing
import ReticulumSdk.Base.Ledger
import ReticulumSdk.Iface.RNode
import ReticulumSdk.Iface.RNodeConnection
import ReticulumSdk.Iface.RNodeReports
import ReticulumSdk.Iface.RNodeConfigured
import ReticulumSdk.Iface.RNodeHandshake
import ReticulumSdk.Iface.RNodeFlow
import ReticulumSdk.Iface.KissFlow
import ReticulumSdk.Iface.KissConfig
import ReticulumSdk.Base.Backoff
import ReticulumSdk.Iface.AcceptLoop
import ReticulumSdk.Iface.BackboneLink
