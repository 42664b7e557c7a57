import Voltha.Lib.FieldTree
import Voltha.Lib.Exec
import Voltha.Lib.Lockstep
import Voltha.Lib.OrderedDict
import Voltha.Lib.KeyedList
import Voltha.Lib.Pop
import Voltha.Lib.Steps
import Voltha.Lib.Packet
import Voltha.Lib.Struct
import Voltha.Lib.Ascii
import Voltha.Common.EventBus
import Voltha.Config.Schema
import Voltha.Config.VolthaSchema
import Voltha.Config.Rev
import Voltha.Config.State
import Voltha.Config.Finalize
import Voltha.Config.Node
import Voltha.Config.Merge
import Voltha.Config.Root
import Voltha.Config.Reentry
import Voltha.Config.Load
import Voltha.Config.Properties.KeyedMerge
import Voltha.Config.Properties.Frame
import Voltha.Config.Properties.HashText
import Voltha.Config.Properties.Effect
import Voltha.Config.Properties.WellFormed
import Voltha.Config.Properties.Preserve
import Voltha.Config.Properties.Mknode
import Voltha.Config.Properties.Operation
import Voltha.Config.Properties.MergeGood
import Voltha.Config.Properties.Reach
import Voltha.Config.Properties.Isolation
import Voltha.Config.Properties.Atomic
import Voltha.Config.Properties.Image
import Voltha.Config.Properties.Apart
import Voltha.Config.Properties.Repeatable
import Voltha.Config.Properties.Keys
import Voltha.Config.Properties.KeyWise
import Voltha.Config.Properties.KeyWiseMerge
import Voltha.Config.Properties.Reentrant
import Voltha.Config.Properties.Untagged
import Voltha.Config.Properties.Cleanup
import Voltha.Config.Properties.Plain
import Voltha.Config.Properties.Digest
import Voltha.Config.Properties.Coherent
import Voltha.Config.Properties.Refinement
import Voltha.Config.Properties.Persist
import Voltha.Config.Properties.Load
import Voltha.Config.Properties.Branchwise
import Voltha.Config.Properties.TxCoherent
import Voltha.Config.Properties.Rehearsal
import Voltha.Config.Properties.MergeCoherent
import Voltha.Config.Properties.Aligned
import Voltha.Config.Properties.Proxy
import Voltha.Cluster.Kv
import Voltha.Cluster.Worker
import Voltha.Cluster.Soak
import Voltha.Cluster.Coordinator
import Voltha.Cluster.Leader
import Voltha.Cluster.Silence
import Voltha.Cluster.Reassignment
import Voltha.Cluster.SafeReassignment
import Voltha.Flow.Ofp
import Voltha.Flow.Build
import Voltha.Flow.Table
import Voltha.Flow.Properties.Table
import Voltha.Flow.Properties.Request
import Voltha.Core.Device
import Voltha.Core.AdapterAgent
import Voltha.Core.DeviceAgent
import Voltha.Core.DeviceGraph
import Voltha.Core.LogicalDeviceAgent
import Voltha.Core.FlowDecomposer
import Voltha.Core.Properties.Transition
import Voltha.Core.Properties.Cached
import Voltha.Core.Properties.Decomposed
import Voltha.Core.Properties.Multicast
import Voltha.Ofagent.ConnectionMgr
import Voltha.Lib.Cut
import Voltha.Ofagent.OfConnection
import Voltha.Common.FrameManager
import Voltha.Common.MessageQueue
import Voltha.Common.SelectLoop
import Voltha.Common.FrameTraffic
import Voltha.Common.Delivery
import Voltha.Omci.Fields
import Voltha.Omci.Entities
import Voltha.Omci.EntityClasses
import Voltha.Omci.Serialize
import Voltha.Omci.Messages
import Voltha.Omci.MessageClasses
import Voltha.Omci.Frame
import Voltha.Netconf.NcConnection
import Voltha.Netconf.Framing
import Voltha.Netconf.Reassembly
import Voltha.Netconf.NcProtocolHandler
import Voltha.Netconf.Replies
import Voltha.Lib.Py
import Voltha.Ofagent.Agent
import Voltha.Grpc.Client
import Voltha.Ofagent.Converter
import Voltha.Ofagent.RoundTrip
import Voltha.Ofagent.Pack
import Voltha.Ofagent.OfProtocolHandler
import Voltha.Ofagent.PacketStreams
import Voltha.Core.AdapterBus
import Voltha.Core.VolthaCore
import Voltha.Core.Properties.Mirror
import Voltha.Lib.Projection
import Voltha.Lib.Worklist
import Voltha.Chameleon.SwaggerTemplate
import Voltha.Chameleon.References
import Voltha.Chameleon.GwGen
import Voltha.Chameleon.NeededSymbols
import Voltha.Chameleon.DescriptorParser
import Voltha.Chameleon.FoldComments
import Voltha.Core.TableSync
import Voltha.Core.Properties.Discovery
import Voltha.Core.Properties.PonTree
import Voltha.Core.Properties.KnownDevice
import Voltha.Core.Properties.TableSync
import Voltha.Core.Properties.TableWrites
import Voltha.Microsemi.OltStateMachine
import Voltha.Microsemi.Pas5211
import Voltha.Microsemi.Pas5211RoundTrip
import Voltha.Microsemi.ActivationWatcher
import Voltha.Microsemi.OnuPorts
import Voltha.Microsemi.BringUp
import Voltha.Lib.Precedence
import Voltha.Ponsim.SimDevice
import Voltha.Ponsim.BestMatch
import Voltha.Ponsim.PonSim
import Voltha.Netconf.YangTemplate
import Voltha.Netconf.YangKeys
import Voltha.Netconf.YangSchema
import Voltha.Netconf.YangReferences
import Voltha.Netconf.YangInline
import Voltha.Netconf.InlineAnnotations
import Voltha.Netconf.RpcResponse
import Voltha.Netconf.YangResponse
import Voltha.Extensions.Igmp
import Voltha.Core.LogicalDeviceIds
import Voltha.Lib.MatchTable
import Voltha.Core.Properties.PonTables
import Voltha.Ponsim.Installed
import Voltha.Ponsim.Controller
import Voltha.Ponsim.Forwarding
import Voltha.Ponsim.InBand
import Voltha.Ponsim.Multicast
import Voltha.Ponsim.Stage
