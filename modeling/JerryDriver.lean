import JerryDriver.Library.Transition
import JerryDriver.Library.Interaction
import JerryDriver.Library.Monitor
import JerryDriver.Library.Interleaving
import JerryDriver.Library.BoundedQueue
import JerryDriver.Library.Registers
import JerryDriver.Library.SerialNumber
import JerryDriver.Library.ByteMemory
import JerryDriver.Library.DigitText
import JerryDriver.Common
import JerryDriver.Hrzr.HeaderParser
import JerryDriver.Hrzr.HeaderFormat
import JerryDriver.Hrzr.Parser
import JerryDriver.Hrzr.MetadataParser
import JerryDriver.Udp.Transmitter
import JerryDriver.Udp.Source
import JerryDriver.Udp.Receptions
import JerryDriver.Udp.Contiguity
import JerryDriver.Udp.Calls
import JerryDriver.Dpdk.Packet
import JerryDriver.Dpdk.SequenceTracking
import JerryDriver.Dpdk.RxThread
import JerryDriver.Dpdk.DumpThread
import JerryDriver.Dpdk.DumpQueues
import JerryDriver.Dpdk.DumpFile
import JerryDriver.Dpdk.DumpLines
import JerryDriver.Dpdk.DumpReader
import JerryDriver.Dpdk.LossDetection
import JerryDriver.Dpdk.ForeignTraffic
import JerryDriver.Dpdk.Source
import JerryDriver.Dpdk.BurstDecoding
import JerryDriver.Dpdk.Delivery
import JerryDriver.Dpdk.PacketSteps
import JerryDriver.Dpdk.Conservation
import JerryDriver.Dpdk.Counters
import JerryDriver.Dpdk.BufferPool
import JerryDriver.Dpdk.Isolation
import JerryDriver.Dpdk.FalseLosses
import JerryDriver.Dpdk.Serialization
import JerryDriver.Dpdk.PacketRuns
import JerryDriver.Dpdk.Shutdown
import JerryDriver.Dpdk.PortUse
import JerryDriver.Dpdk.Startup
import JerryDriver.Dpdk.Platform
import JerryDriver.Dpdk.StartupOrder
import JerryDriver.Grpc.Device
import JerryDriver.Grpc.Client
import JerryDriver.IqClient.Setters
import JerryDriver.IqClient.SetterContract
import JerryDriver.IqClient.Fields
import JerryDriver.IqClient.RegisterFile
import JerryDriver.IqClient.SharedDevice
import JerryDriver.IqClient.Json
import JerryDriver.IqClient.CheckedWrites
import JerryDriver.IqClient.JsonContract
import JerryDriver.IqClient.SucceedingCalls
import JerryDriver.IqClient.UnsupportedConfiguration
import JerryDriver.IqClient.Configurations
import JerryDriver.IqClient.NumberRange
import JerryDriver.IqClient.AbsentKeys
import JerryDriver.IqClient.SendPayload
import JerryDriver.IqClient.PayloadBounds
import JerryDriver.IqClient.Session
import JerryDriver.IqClient.ConfigurationOrder
import JerryDriver.IqClient.SourceLifecycle
import JerryDriver.Sources.CallerBuffer
import JerryDriver.Sources.Agreement
import JerryDriver.Sources.UnknownControl
import JerryDriver.Sources.PacketLengths
import JerryDriver.Sources.CountRanges
import JerryDriver.Sources.Loopback
import JerryDriver.Sources.DpdkLoopback
