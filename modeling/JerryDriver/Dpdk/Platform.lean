import JerryDriver.Dpdk.Startup
import JerryDriver.Library.DigitText
import JerryDriver.Library.Monitor

/-! The order in which DPDK may be called. The platform records what the calls have
achieved; a call needs what DPDK documents for it, and a thread may only be launched once
everything is set up. Nothing may follow a call that failed, unless it is one of those whose
results the constructor drops. -/
namespace JerryDriver.Startup
open Interaction Program Definitions

/-- A queue that is set up is kept with the pool that it fills its buffers from. -/
structure Port where
  rxQueues : Option Nat
  queuesSetUp : List (Nat × Option Nat)
  promiscuous : Bool
  started : Bool
  linkUp : Bool

namespace Port

def untouched : Port := ⟨none, [], false, false, false⟩

/-- One queue, set up with this pool, and the link up. -/
def receiving (pool : Option Nat) : Port := ⟨some 1, [(0, pool)], true, true, true⟩

end Port

abbrev Launch := ThreadFunction × Nat × Int

/-- What is set up. Pools and rings are kept with their names and launches with their return
codes; a ring is NULL if it was not created. The failure is one that the constructor looks
at, and that of the last call. -/
structure Platform where
  lcores : Option (List Int)
  pools : List (String × Nat)
  ports : UInt16 → Port
  rings : List (String × Option Nat)
  launches : List (Launch × Int)
  failed : Bool

/-- The numbers that the argument after `-l` lists. -/
def lcoresOf : List String → List Int
  | "-l" :: text :: _ => DigitText.commaSeparated text.toList
  | _ :: rest => lcoresOf rest
  | [] => []

/-- Results with which DPDK reports a failure. -/
def fails : (call : Call) → call.Result → Bool
  | .ealInit _, ret => ret < 0
  | .ethDevCountAvail, count => count = 0
  | .warn _ _, _ => false
  | .pktmbufPoolCreate _ _, pool => pool.isNone
  | .ethDevInfoGet _, info => info.1 ≠ 0
  | .ethDevConfigure _ _ _ _, ret => ret < 0
  | .ethRxQueueSetup _ _ _ _ _, ret => ret < 0
  | .ethPromiscuousEnable _, ret => ret ≠ 0
  | .ethDevStart _, ret => ret < 0
  | .ethLinkGet _, link => link.1 ≠ 0 ∨ link.2 = false
  | .ringCreate _ _, ring => ring.isNone
  | .ealRemoteLaunch _ _ _, ret => ret ≠ 0

/-- The calls whose results the constructor looks at. -/
def attended : Call → Bool
  | .warn _ _ | .ringCreate _ _ | .ealRemoteLaunch _ _ _ => false
  | _ => true

/-- The failures that the constructor does not survive. -/
def fatal (call : Call) (result : call.Result) : Bool := attended call && fails call result

namespace Platform

def start : Platform := ⟨none, [], fun _ => .untouched, [], [], false⟩

def put (s : Platform) (port : UInt16) (now : Port) : Platform :=
  { s with ports := Function.update s.ports port now }

/-- What a call achieves that ends without a fatal failure. -/
def achieve (s : Platform) : (call : Call) → call.Result → Platform
  | .ealInit argv, _ => { s with lcores := some (lcoresOf argv) }
  | .pktmbufPoolCreate name _, pool =>
    { s with pools := s.pools ++ pool.toList.map fun pool => (name, pool) }
  | .ethDevConfigure port nbRxQueue _ _, _ =>
    s.put port { s.ports port with rxQueues := some nbRxQueue, queuesSetUp := [] }
  | .ethRxQueueSetup port queue _ _ pool, _ =>
    s.put port { s.ports port with queuesSetUp := (s.ports port).queuesSetUp ++ [(queue, pool)] }
  | .ethPromiscuousEnable port, _ => s.put port { s.ports port with promiscuous := true }
  | .ethDevStart port, _ => s.put port { s.ports port with started := true }
  | .ethLinkGet port, _ => s.put port { s.ports port with linkUp := true }
  | .ringCreate name _, ring => { s with rings := s.rings ++ [(name, ring)] }
  | .ealRemoteLaunch function numStream lcore, ret =>
    { s with launches := s.launches ++ [((function, numStream, lcore), ret)] }
  | .ethDevCountAvail, _ | .warn _ _, _ | .ethDevInfoGet _, _ => s

/-- The names that a loop over the streams from number `i` on makes. -/
def names (base : String) (i : Nat) (streams : List StreamAttr) : List String :=
  (List.range' i streams.length).map fun number => base ++ toString number

theorem names_cons (base : String) (i : Nat) (stream : StreamAttr) (rest : List StreamAttr) :
    names base i (stream :: rest) = (base ++ toString i) :: names base (i + 1) rest := rfl

def Initialized (s : Platform) : Prop := s.lcores.isSome = true

/-- Every stream has a pool, its port receives into one, and its ring has been asked for. -/
structure Prepared (streams : List StreamAttr) (s : Platform) : Prop where
  pools : s.pools.map Prod.fst = names "mbuf_pool_" 0 streams
  rings : s.rings.map Prod.fst = names "rx_ring_" 0 streams
  ports : ∀ stream ∈ streams, ∃ pool ∈ s.pools, s.ports stream.port = .receiving (some pool.2)

/-- Every ring that was asked for was created, and every launch accepted. -/
def Granted (s : Platform) : Prop :=
  (∀ ring ∈ s.rings, ring.2.isSome = true) ∧ ∀ launch ∈ s.launches, launch.2 = 0

/-- The states in which a call may be made. The environment is initialized once and before
everything else; a port is configured, then its queues are set up, then it is started, and
it is not configured while it is started. -/
def Permits (streams : List StreamAttr) (s : Platform) : Call → Prop
  | .ealInit _ => s.lcores = none
  | .warn _ _ => True
  | .ethDevCountAvail | .pktmbufPoolCreate _ _ | .ethDevInfoGet _ | .ringCreate _ _ =>
    s.Initialized
  | .ethDevConfigure port _ _ _ => s.Initialized ∧ (s.ports port).started = false
  | .ethRxQueueSetup port queue _ _ pool => (s.ports port).started = false ∧
    (∃ n, (s.ports port).rxQueues = some n ∧ queue < n) ∧ ∃ p ∈ s.pools, pool = some p.2
  | .ethPromiscuousEnable port => (s.ports port).rxQueues.isSome = true
  | .ethDevStart port => (s.ports port).started = false ∧
    ∃ n, (s.ports port).rxQueues = some n ∧
      ∀ queue < n, queue ∈ (s.ports port).queuesSetUp.map Prod.fst
  | .ethLinkGet port => (s.ports port).started = true
  | .ealRemoteLaunch _ _ lcore => s.Prepared streams ∧ ∃ lcores, s.lcores = some lcores ∧
    lcore ∈ lcores

end Platform

def order (streams : List StreamAttr) : Monitor Platform Call Call.Result where
  Allows s call := s.failed = false ∧ s.Permits streams call
  next s call result :=
    if fatal call result then { s with failed := true } else s.achieve call result

/-- How a constructor that got to call DPDK may end early: behind the call that failed, and
before any launch. -/
def Aborted : Ending → Platform → Prop
  | .thrown _, _ => False
  | .rteExit _ _, s => s.failed = true ∧ s.launches = []

section Calls

variable {streams : List StreamAttr} {s : Platform} {α : Type}
  {Returns : α → Platform → Prop}

/-- A call that is followed by an exit if it fails. -/
theorem keeps_checked {call : Call} {Bad : call.Result → Prop} [DecidablePred Bad]
    {format : call.Result → String} {arguments : call.Result → List Int}
    {rest : call.Result → DpdkCalls α}
    (quiet : s.failed = false ∧ s.launches = []) (permitted : s.Permits streams call)
    (agrees : ∀ result, fatal call result = true ↔ Bad result)
    (goesOn : ∀ result, ¬ Bad result →
      (rest result).Keeps (order streams) Returns Aborted (s.achieve call result)) :
    (dpdk call >>= fun result =>
      if Bad result then rteExit (format result) (arguments result) else rest result).Keeps
        (order streams) Returns Aborted s := by
  refine keeps_request_bind ⟨quiet.1, permitted⟩ fun result => ?_
  by_cases bad : Bad result
  · have next : (order streams).next s call result = { s with failed := true } :=
      if_pos ((agrees result).mpr bad)
    rw [if_pos bad, next]
    exact keeps_throws ⟨rfl, quiet.2⟩
  · have next : (order streams).next s call result = s.achieve call result :=
      if_neg fun failed => bad ((agrees result).mp failed)
    rw [if_neg bad, next]
    exact goesOn result bad

/-- A call whose result is dropped. -/
theorem keeps_dropped {call : Call} {rest : call.Result → DpdkCalls α}
    (running : s.failed = false) (permitted : s.Permits streams call)
    (dropped : attended call = false)
    (goesOn : ∀ result,
      (rest result).Keeps (order streams) Returns Aborted (s.achieve call result)) :
    (dpdk call >>= rest).Keeps (order streams) Returns Aborted s := by
  refine keeps_request_bind ⟨running, permitted⟩ fun result => ?_
  have next : (order streams).next s call result = s.achieve call result :=
    if_neg (by rw [fatal, dropped]; exact Bool.false_ne_true)
  rw [next]
  exact goesOn result

end Calls

end JerryDriver.Startup
