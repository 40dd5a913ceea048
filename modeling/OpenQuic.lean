import OpenQuic.Lib.Word
import OpenQuic.Lib.OrdMap
import OpenQuic.Lib.Runs
import OpenQuic.Lib.Spans
import OpenQuic.Lib.Bytes
import OpenQuic.Base
import OpenQuic.Utils.Varint
import OpenQuic.Format.RoundTrip
import OpenQuic.Modules.CongestionBounds
import OpenQuic.Modules.FrameLedger
import OpenQuic.Modules.AckReceived
import OpenQuic.Modules.StreamLife
import OpenQuic.Sorter.Delivery
import OpenQuic.Modules.StreamRecv
import OpenQuic.Modules.FlowBooks
import OpenQuic.Modules.FlowReads
import OpenQuic.Modules.StreamFrames
import OpenQuic.Modules.ConnidGen
import OpenQuic.Modules.DstIds
import OpenQuic.Server.Impl
import OpenQuic.Server.Routing
import OpenQuic.Modules.Sender
import OpenQuic.Modules.RecverAuth
import OpenQuic.Modules.PackFits
import OpenQuic.Modules.AckRuns
import OpenQuic.Format.Triples
import OpenQuic.Format.Parsing
import OpenQuic.Format.TransportUnknown
import OpenQuic.Modules.RecvLoop
import OpenQuic.Modules.RecvBounds
import OpenQuic.Modules.CryptoOut
import OpenQuic.Modules.Nonces
import OpenQuic.Modules.SendHeader
import OpenQuic.Modules.StreamSend
import OpenQuic.Modules.Replay
import OpenQuic.Modules.Pacing
import OpenQuic.Modules.CubicGrowth
import OpenQuic.Modules.AckCount
import OpenQuic.Modules.ActiveQueue
import OpenQuic.Modules.DestoryPass
import OpenQuic.Modules.StreamIds
import OpenQuic.Modules.Windows
import OpenQuic.Modules.Wakeup
import OpenQuic.Lib.Blocks
import OpenQuic.Modules.Writers
import OpenQuic.Sorter.Walk
import OpenQuic.Modules.DstRetired
import OpenQuic.Modules.HeaderRoundTrip
import OpenQuic.Lib.Framing
import OpenQuic.Modules.CryptoIn
import OpenQuic.Modules.SenderLoop
import OpenQuic.Modules.LossTimer
import OpenQuic.Modules.Levels
import OpenQuic.Modules.Migrate
import OpenQuic.Modules.RoundRobin
import OpenQuic.Peers.Transfer
import OpenQuic.Peers.Handshake
import OpenQuic.Peers.Acknowledge
import OpenQuic.Peers.Addresses
import OpenQuic.Peers.FirstFlight
import OpenQuic.Modules.RoundTrips
import OpenQuic.Peers.Link
