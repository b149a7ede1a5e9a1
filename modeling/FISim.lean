import FISim.Lib.Transition
import FISim.Lib.BigEndian
import FISim.Common
import FISim.Header
import FISim.Multipath.Connection
import FISim.Multipath.Server
import FISim.Multipath.Batching
import FISim.Lib.Framing
import FISim.Multipath.Segmentation
import FISim.Multipath.Sending
import FISim.Multipath.Reassembly
import FISim.Multipath.Handshake
import FISim.Multipath.HandshakeInvariant
import FISim.Multipath.HandshakeSteps
import FISim.Lib.Chain
import FISim.NameResolution.Network
import FISim.NameResolution.Moves
import FISim.NameResolution.Termination
import FISim.NameResolution.SingleWriter
import FISim.NameResolution.Outstanding
import FISim.NameResolution.Matching
import FISim.NameResolution.Coherence
import FISim.Control.EndHostDaemon
import FISim.Control.Manager
import FISim.Control.Segments
import FISim.Control.Ports
import FISim.Control.Download
import FISim.Topology.Passes
import FISim.Topology.Hierarchy
import FISim.Lib.FirstOnly
import FISim.Topology.Addresses
import FISim.Topology.CoreLinks
import FISim.Topology.EdgeLinks
import FISim.Topology.AccessClusters
import FISim.Topology.UnknownTargets
import FISim.Topology.RootedTree
import FISim.Control.FullDuplexStream
import FISim.ContentCentric.Protocol
import FISim.ContentCentric.Delivery
import FISim.ContentCentric.Copies
import FISim.ContentCentric.Routing
import FISim.ContentCentric.Transfer
import FISim.Buffers.Buffer
import FISim.Buffers.Sharing
import FISim.Buffers.Adding
import FISim.Buffers.Writing
import FISim.Buffers.Copying
import FISim.Buffers.Trimming
import FISim.Buffers.Reading
import FISim.Buffers.Commands
import FISim.Buffers.Family
import FISim.Buffers.Refinement
import FISim.Codec
import FISim.Lib.Links
import FISim.Multipath.Accounting
import FISim.Multipath.ConnectionTable
import FISim.Lib.SharedLists
import FISim.Lib.CopyOnWrite
import FISim.Lib.SharedRoots
import FISim.PacketTags.Family
import FISim.PacketTags.Traversal
import FISim.PacketTags.Operations
import FISim.PacketTags.Release
import FISim.PacketTags.Refinement
import FISim.Fragmentation.Fragments
import FISim.Lib.Pieces
import FISim.Fragmentation.Cutting
import FISim.Fragmentation.Reassembly
import FISim.Events.Scheduler
import FISim.Events.EventLoop
import FISim.Tcp.RxBuffer
import FISim.Tcp.RxPieces
import FISim.Tcp.Receiver
import FISim.Tcp.RxInsertion
import FISim.Tcp.RxStream
import FISim.Tcp.RxCalls
import FISim.Tcp.RxWindow
import FISim.Tcp.SackList
import FISim.Control.Registration
import FISim.Control.Resolution
import FISim.Lib.Turns
import FISim.Multipath.Closing
import FISim.Multipath.PathChoice
import FISim.Multipath.Identity
import FISim.Control.Pumps
import FISim.Control.RateLimits
import FISim.Multipath.SetUp
import FISim.Control.AppDownloadServer
import FISim.Control.DownloadServer
import FISim.Control.AppDownloadClient
import FISim.Control.BulkClient
import FISim.Lib.InverseMaps
import FISim.Control.StreamTables
import FISim.Lib.Agenda
import FISim.Control.TrafficControl
import FISim.Control.TrafficLimits
import FISim.Control.TrafficBursts
import FISim.NameResolution.PendingTables
import FISim.Tcp.TxBuffer
import FISim.Tcp.TxEditing
import FISim.Tcp.TxCopying
import FISim.Tcp.TxMarking
import FISim.Tcp.TxStream
import FISim.Tcp.TxQueue
import FISim.Tcp.Tally
import FISim.Tcp.Scoreboard
import FISim.Routing.StaticRouting
import FISim.Lib.ShortestPaths
import FISim.Routing.LinkState
import FISim.Routing.Arcs
import FISim.Routing.CandidateQueue
import FISim.Routing.ShortestPathFirst
import FISim.Routing.StubNode
import FISim.Routing.Distances
import FISim.Routing.EqualCostPaths
import FISim.Lib.HeapOrder
import FISim.Events.PriorityQueue
import FISim.Events.HeapScheduler
import FISim.Events.CalendarScheduler
import FISim.Events.CalendarOrder
import FISim.PacketTags.TagCodecs
import FISim.Lib.LongDivision
import FISim.FixedPoint.Int64x64
import FISim.FixedPoint.Division
import FISim.Lib.Ranges
import FISim.Addressing.AddressGenerator
import FISim.Routing.NextLinks
import FISim.SequenceNumber
import FISim.Lib.SharedLogs
import FISim.ByteTags.ByteTagList
import FISim.ByteTags.Spans
import FISim.ByteTags.Storage
import FISim.ByteTags.Adding
import FISim.ByteTags.Editing
import FISim.ByteTags.Clipping
import FISim.ByteTags.Packet
import FISim.ByteTags.Following
import FISim.ByteTags.Refinement
import FISim.Lib.Forwarding
import FISim.Routing.GlobalRouting
import FISim.Routing.PacketForwarding
import FISim.Tcp.Transfer
import FISim.Lib.OrderedMaps
import FISim.Lib.Custody
import FISim.AddressResolution.ArpHeader
import FISim.AddressResolution.ArpCache
import FISim.AddressResolution.ArpL3Protocol
import FISim.AddressResolution.Resolving
import FISim.AddressResolution.Expiring
import FISim.AddressResolution.Link
import FISim.Devices.EthernetFrame
