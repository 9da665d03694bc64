import Pjon.Spec.Admission
import Pjon.Proofs.RoundTrip
import Pjon.Proofs.Deliver
import Pjon.Proofs.Interop
import Pjon.Proofs.Boundary
import Pjon.Lib.Recent
import Pjon.Proofs.PacketIds
import Pjon.Model.Local
import Pjon.Proofs.Local
import Pjon.Lib.Run
import Pjon.Model.Router
import Pjon.Model.ThroughSerial
import Pjon.Model.VirtualBus
import Pjon.Proofs.ThroughSerial
import Pjon.Lib.Dedup
import Pjon.Model.Sending
import Pjon.Spec.Once
import Pjon.Proofs.Frames
import Pjon.Proofs.Duplicates
import Pjon.Proofs.Blocking
import Pjon.Proofs.Update
import Pjon.Lib.Search
import Pjon.Model.Forward
import Pjon.Model.Switch
import Pjon.Spec.Routing
import Pjon.Spec.Learned
import Pjon.Proofs.Forward
import Pjon.Proofs.Switch
import Pjon.Proofs.Destinations
import Pjon.Proofs.Identity
import Pjon.Proofs.Learning
import Pjon.Proofs.Recompose
import Pjon.Proofs.Hops
import Pjon.Proofs.Transparent
import Pjon.Proofs.Arrivals
import Pjon.Proofs.Translation
import Pjon.Lib.Chain
import Pjon.Proofs.HandOn
import Pjon.Proofs.Canonical
import Pjon.Proofs.Locations
import Pjon.Proofs.VirtualBus
import Pjon.Proofs.Broadcasts
import Pjon.Proofs.Periods
import Pjon.Proofs.Replies
import Pjon.Spec.Periods
import Pjon.Spec.Replies
import Pjon.Lib.Remainder
import Pjon.Lib.Period
import Pjon.Proofs.Distance
import Pjon.Spec.Distance
import Pjon.Lib.Stuffing
import Pjon.Model.AnalogSampling
import Pjon.Spec.Framing
import Pjon.Proofs.Framing
import Pjon.Proofs.AnalogSampling
import Pjon.Model.MQTTTranslate
import Pjon.Spec.Messages
import Pjon.Proofs.MQTTTranslate
import Pjon.Model.Interactive
import Pjon.Spec.Device
import Pjon.Proofs.Interactive
import Pjon.Spec.LifeCycle
import Pjon.Proofs.LifeCycle
import Pjon.Lib.Best
import Pjon.Lib.Ring
import Pjon.Model.LocalFile
import Pjon.Spec.SharedLog
import Pjon.Proofs.LocalFile
import Pjon.Model.DualUDP
import Pjon.Spec.Network
import Pjon.Proofs.DualUDP
import Pjon.Lib.Transducer
import Pjon.Proofs.Pieces
import Pjon.Proofs.Overrun
import Pjon.Spec.MetaData
import Pjon.Proofs.MetaData
import Pjon.Model.Datagrams
import Pjon.Spec.Datagrams
import Pjon.Proofs.Datagrams
import Pjon.Model.RS485
import Pjon.Spec.RS485
import Pjon.Proofs.RS485
import Pjon.Lib.Clock
import Pjon.Model.Strategies
import Pjon.Spec.Due
import Pjon.Proofs.Due
import Pjon.Spec.FreshStart
import Pjon.Proofs.FreshStart
import Pjon.Spec.Promises
import Pjon.Proofs.Promises
import Pjon.Lib.Cursor
import Pjon.Spec.Routes
import Pjon.Proofs.Routes
import Pjon.Lib.Elimination
import Pjon.Proofs.Bursts
import Pjon.Lib.Triple
import Pjon.Model.Templates
import Pjon.Spec.Indices
import Pjon.Proofs.Indices
import Pjon.Lib.Window
import Pjon.Spec.Window
import Pjon.Proofs.Window
import Pjon.Model.UDPHelper
import Pjon.Spec.Links
import Pjon.Proofs.UDPHelper
import Pjon.Model.NodeTable
import Pjon.Proofs.NodeTable
import Pjon.Lib.Registry
import Pjon.Spec.NodeTable
import Pjon.Proofs.NodeMap
import Pjon.Proofs.StaticNodes
import Pjon.Spec.Devices
import Pjon.Proofs.Devices
import Pjon.Lib.Word
import Pjon.Lib.Scan
import Pjon.Model.EthernetLink
import Pjon.Spec.Transfers
import Pjon.Proofs.EthernetLink
import Pjon.Model.MQTTPublish
import Pjon.Spec.Publishing
import Pjon.Proofs.Publishing
import Pjon.Proofs.Responses
import Pjon.Spec.JsonBus
import Pjon.Proofs.JsonText
import Pjon.Proofs.JsonBus
import Pjon.Spec.Chunks
import Pjon.Proofs.Chunks
import Pjon.Model.LocalSending
import Pjon.Spec.LocalSending
import Pjon.Model.ResponseWait
import Pjon.Proofs.LocalSending
import Pjon.Spec.ResponseWait
import Pjon.Model.LinuxClock
import Pjon.Proofs.LinuxClock
import Pjon.Proofs.ResponseWait
import Pjon.Lib.Interleaving
import Pjon.Lib.Process
import Pjon.Lib.Timed
import Pjon.Model.BitBangReceive
import Pjon.Model.SingleSocket
import Pjon.Proofs.BitBang
import Pjon.Proofs.BitBangReceive
import Pjon.Proofs.BitBangResponse
import Pjon.Proofs.CanStart
import Pjon.Proofs.SingleSocket
import Pjon.Proofs.SocketTurns
import Pjon.Model.ThroughLora
import Pjon.Proofs.Conversation
import Pjon.Proofs.RadioExchange
import Pjon.Lib.Descent
import Pjon.Proofs.Internetwork
