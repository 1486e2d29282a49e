import JerryDriver.Dpdk.Source
import JerryDriver.Library.Interaction

/-! The constructor of a `DpdkSource`, as the calls into DPDK that it makes and its
reactions to their results, which are free. `rte_exit` ends the process, so nothing comes
after it. NUMA socket numbers, which are only passed on, are left out. -/
namespace JerryDriver.Startup
open Interaction Definitions

/-- Pools and rings are pointers; NULL is `none`. -/
structure StreamAttr where
  lCores : Int × Int
  dpdkPortId : Int
  udpRxPort : UInt16
  mbufPool : Option Nat
  ring : Option Nat

/-- The port as DPDK's functions take it, in 16 bits. -/
def StreamAttr.port (stream : StreamAttr) : UInt16 := .ofInt stream.dpdkPortId

inductive ThreadFunction where
  | rxThread
  | dumpThread
  deriving DecidableEq

/-- What the code reads and changes of the configurations of a device. -/
structure RxConf where
  rxFreeThresh : UInt16
  rxDropEn : UInt8
  offloads : UInt64

structure EthConf where
  rxOffloads : UInt64
  txOffloads : UInt64

structure DevInfo where
  defaultRxconf : RxConf
  txOffloadCapa : UInt64

inductive Call where
  | ealInit (argv : List String)
  | ethDevCountAvail
  | warn (nrPorts : UInt16) (numStreams : Nat)
  | pktmbufPoolCreate (name : String) (n : Nat)
  | ethDevInfoGet (port : UInt16)
  | ethDevConfigure (port : UInt16) (nbRxQueue nbTxQueue : Nat) (conf : EthConf)
  | ethRxQueueSetup (port : UInt16) (queue nbRxDesc : Nat) (conf : RxConf) (pool : Option Nat)
  | ethPromiscuousEnable (port : UInt16)
  | ethDevStart (port : UInt16)
  | ethLinkGet (port : UInt16)
  | ringCreate (name : String) (count : Nat)
  | ealRemoteLaunch (function : ThreadFunction) (numStream : Nat) (lcore : Int)

/-- Return codes; with `ethLinkGet` also whether the link is up. -/
abbrev Call.Result : Call → Type
  | .ethDevCountAvail => UInt16
  | .warn _ _ => Unit
  | .pktmbufPoolCreate _ _ | .ringCreate _ _ => Option Nat
  | .ethDevInfoGet _ => Int × DevInfo
  | .ethLinkGet _ => Int × Bool
  | .ealInit _ | .ethDevConfigure _ _ _ _ | .ethRxQueueSetup _ _ _ _ _
  | .ethPromiscuousEnable _ | .ethDevStart _ | .ealRemoteLaunch _ _ _ => Int

/-- An exception of the constructor, or `rte_exit` with its format and the numbers that
go into it (an error number for its text). -/
inductive Ending where
  | thrown (thrown : Thrown)
  | rteExit (format : String) (arguments : List Int)

abbrev DpdkCalls (α : Type) := Program Call Call.Result Ending α

def dpdk (call : Call) : DpdkCalls call.Result := Program.request call

def rteExit {α : Type} (format : String) (arguments : List Int) : DpdkCalls α :=
  .throws (.rteExit format arguments)

def nrQueues : Nat := 1
def mempoolSize : Nat := 4096

section SetupDpdk

/-- The loop that appends both lcores of each stream, and a comma unless it is the last. -/
def lCoresString (text : String) : List StreamAttr → String
  | [] => text
  | [stream] => text ++ toString stream.lCores.1 ++ "," ++ toString stream.lCores.2
  | stream :: rest =>
    lCoresString (text ++ toString stream.lCores.1 ++ "," ++ toString stream.lCores.2 ++ ",") rest

def setupEal (argv : List String) : DpdkCalls Unit := do
  let ret : Int ← dpdk (.ealInit argv)
  if ret < 0 then rteExit "Invalid EAL arguments\n" [] else return ()

def checkAvailablePorts (numStreams : Nat) : DpdkCalls Unit := do
  let nrPorts : UInt16 ← dpdk .ethDevCountAvail
  if nrPorts = 0 then rteExit "No Ethernet ports found\n" []
  else if nrPorts.toNat ≠ numStreams then dpdk (.warn nrPorts numStreams)
  else return ()

def allocateMemPool : (i : Nat) → List StreamAttr → DpdkCalls (List StreamAttr)
  | _, [] => return []
  | i, stream :: rest => do
    let mbufPool : Option Nat ← dpdk (.pktmbufPoolCreate ("mbuf_pool_" ++ toString i) mempoolSize)
    if mbufPool.isNone then rteExit "Cannot init mbuf pool\n" []
    else
      let others ← allocateMemPool (i + 1) rest
      return { stream with mbufPool } :: others

def setupDpdk (streams : List StreamAttr) : DpdkCalls (List StreamAttr) := do
  setupEal ["dpdk", "-l", lCoresString "" streams, "--log-level", "lib.eal:error"]
  checkAvailablePorts streams.length
  allocateMemPool 0 streams

end SetupDpdk

section SetupPort

variable (stream : StreamAttr)

def getDevInfo : DpdkCalls DevInfo := do
  let info : Int × DevInfo ← dpdk (.ethDevInfoGet stream.port)
  if info.1 ≠ 0 then
    rteExit "Error getting dev info of device (port %u) info: %s\n" [stream.dpdkPortId, -info.1]
  else return info.2

def configurePort (portConf : EthConf) : DpdkCalls Unit := do
  let ret : Int ← dpdk (.ethDevConfigure stream.port nrQueues 0 portConf)
  if ret < 0 then
    rteExit ":: cannot configure device: err=%d, port=%u\n" [ret, stream.dpdkPortId]
  else return ()

def getPortConf (devInfo : DevInfo) : DpdkCalls EthConf := do
  let portConf : EthConf := ⟨0, 0⟩
  let portConf := { portConf with txOffloads := portConf.txOffloads &&& devInfo.txOffloadCapa }
  configurePort stream portConf
  return portConf

def configureRxConf : DpdkCalls RxConf := do
  let devInfo ← getDevInfo stream
  let portConf ← getPortConf stream devInfo
  return { devInfo.defaultRxconf with offloads := portConf.rxOffloads }

def setupRxQueue (rxqConf : RxConf) (queue : Nat) : DpdkCalls Unit := do
  let ret : Int ← dpdk (.ethRxQueueSetup stream.port queue 4096 rxqConf stream.mbufPool)
  if ret < 0 then rteExit "Rx queue setup failed: err=%d, port=%u\n" [ret, stream.dpdkPortId]
  else return ()

def setupRxQueues (rxqConf : RxConf) : DpdkCalls Unit :=
  (List.range nrQueues).forM (setupRxQueue stream rxqConf)

def enablePromiscuousMode : DpdkCalls Unit := do
  let ret : Int ← dpdk (.ethPromiscuousEnable stream.port)
  if ret ≠ 0 then
    rteExit "Promiscuous mode enable failed: err=%s, port=%u\n" [-ret, stream.dpdkPortId]
  else return ()

def startPort : DpdkCalls Unit := do
  let ret : Int ← dpdk (.ethDevStart stream.port)
  if ret < 0 then rteExit "rte_eth_dev_start:err=%d, port=%u\n" [ret, stream.dpdkPortId]
  else return ()

def assertLinkStatus : DpdkCalls Unit := do
  let link : Int × Bool ← dpdk (.ethLinkGet stream.port)
  if link.1 ≠ 0 ∨ link.2 = false then rteExit "Link is not up" [] else return ()

def setupPort : DpdkCalls Unit := do
  let rxqConf ← configureRxConf stream
  setupRxQueues stream rxqConf
  enablePromiscuousMode stream
  startPort stream
  assertLinkStatus stream

end SetupPort

/-- The first loop of the constructor. What `rte_ring_create` returns is not looked at. -/
def setupStreams : (i : Nat) → List StreamAttr → DpdkCalls (List StreamAttr)
  | _, [] => return []
  | i, stream :: rest => do
    setupPort stream
    let ring : Option Nat ← dpdk (.ringCreate ("rx_ring_" ++ toString i) ringSize)
    let others ← setupStreams (i + 1) rest
    return { stream with ring } :: others

def threadFunction (dumpMode : Bool) : ThreadFunction :=
  if dumpMode then .dumpThread else .rxThread

/-- The second loop, whose results are dropped. -/
def launchThreads (dumpMode : Bool) : (i : Nat) → List StreamAttr → DpdkCalls Unit
  | _, [] => return ()
  | i, stream :: rest => do
    let _ : Int ← dpdk (.ealRemoteLaunch (threadFunction dumpMode) i stream.lCores.2)
    launchThreads dumpMode (i + 1) rest

/-- The object that is constructed. -/
structure Constructed where
  hrzrParser : HrzrParser
  streams : List StreamAttr

def create (streams : List StreamAttr) (norm : ℚ) (dumpMode : Bool) : DpdkCalls Constructed := do
  let hrzrParser ← Program.ofExcept ((HrzrParser.create norm).mapError .thrown)
  let streams ← setupDpdk streams
  let streams ← setupStreams 0 streams
  launchThreads dumpMode 0 streams
  return ⟨hrzrParser, streams⟩

/-- What the constructor fixes for the threads and the callers of `getSamples`. -/
def Constructed.setup (source : Constructed) : DpdkSource.Setup where
  parser := source.hrzrParser
  numStreams := source.streams.length
  udpRxPort := fun numStream => (source.streams[numStream]?).elim 0 (·.udpRxPort)

end JerryDriver.Startup
