import JerryDriver.Dpdk.RxThread
import JerryDriver.Hrzr.Parser
import JerryDriver.Library.Transition

/-! A `DpdkSource` that was started without dump mode: for every stream a port queue,
a receive thread polling it, a ring, and callers of `getSamples` polling the same
queue. A step is one loop iteration of a thread or one call. A poll hands out a
prefix of the frames waiting at the port, of any size the caller has room for. What
was polled by whom and what calls returned is recorded as history. -/
namespace JerryDriver
open Definitions HrzrParser

namespace DpdkSource

/-- What `rte_eth_rx_burst` is asked for: its parameter has 16 bits. -/
def packetsToDequeue (numberOfSamples : Nat) : Nat :=
  (numberOfSamples / samplesPerPacket + 1) % 65536

def payloadOf (m : Mbuf) : Nat → Int16 := payloadAt m.data HrzrPacketAllHeaders.size

structure Decoding where
  totalSamplesReceived : Nat
  samples : SampleBuffer
  freed : List Mbuf

def decodeLoop (parser : HrzrParser) : List Mbuf → (packetIdx : Nat) → Decoding → Decoding
  | [], _, decoding => decoding
  | m :: rest, packetIdx, decoding =>
    let (samplesReceived, samples) :=
      parsePayloadSamples parser packetIdx (payloadOf m) decoding.samples
    decodeLoop parser rest (packetIdx + 1)
      ⟨decoding.totalSamplesReceived + samplesReceived, samples, decoding.freed ++ [m]⟩

/-- `getSamples` once the burst is there: every frame is decoded and freed. -/
def getSamples (parser : HrzrParser) (burst : List Mbuf) (samples : SampleBuffer) : Decoding :=
  decodeLoop parser burst 0 ⟨0, samples, []⟩

structure Call where
  frames : List Mbuf
  returned : Nat
  samples : SampleBuffer

/-- Consecutive samples of a buffer, with the frame whose place they take. -/
structure Block where
  frame : Mbuf
  samples : List Sample

/-- The blocks that a call counts in its return value, read from the caller's buffer. -/
def Call.blocks (call : Call) : List Block :=
  (call.frames.take (call.returned / samplesPerPacket)).mapIdx fun packetIdx m =>
    ⟨m, call.samples.block packetIdx⟩

def decodedBlock (parser : HrzrParser) (m : Mbuf) : Block :=
  ⟨m, (List.range samplesPerPacket).map (decoded parser (payloadOf m))⟩

inductive Poller where
  | rxThread
  | getSamples
  deriving DecidableEq

structure Stream where
  waiting : List Mbuf
  seq : Int
  ring : RteRing
  freed : List Mbuf
  skips : List (Option Skip)
  arrived : List Mbuf
  polled : List (Poller × Mbuf)
  calls : List Call

def Stream.start : Stream := ⟨[], 0, .empty, [], [], [], [], []⟩

def Stream.blocks (stream : Stream) : List Block := stream.calls.flatMap Call.blocks

/-- What the constructor fixes: the norm, the streams and their UDP ports. -/
structure Setup where
  parser : HrzrParser
  numStreams : Nat
  udpRxPort : Nat → UInt16

end DpdkSource

structure DpdkSource where
  streams : Nat → DpdkSource.Stream
  totals : Totals
  /-- An exception that left a thread function; it terminates the process. -/
  terminated : Option Thrown

namespace DpdkSource

def start : DpdkSource := ⟨fun _ => .start, ⟨0, 0⟩, none⟩

inductive Action where
  | arrive (numStream : Nat) (m : Mbuf)
  | rxThread (numStream nbRx : Nat)
  | getSamples (numStream numberOfSamples nbRx : Nat) (samples : SampleBuffer)

def Action.numStream : Action → Nat
  | .arrive numStream _ | .rxThread numStream _ | .getSamples numStream _ _ _ => numStream

def poll (poller : Poller) (nbRx : Nat) (stream : Stream) : Stream :=
  { stream with waiting := stream.waiting.drop nbRx
                polled := stream.polled ++ (stream.waiting.take nbRx).map (poller, ·) }

def iterate (setup : Setup) (source : DpdkSource) (numStream : Nat) (burst : Burst) : RxThread :=
  let stream := source.streams numStream
  RxThread.processBurst (setup.udpRxPort numStream)
    ⟨stream.seq, source.totals, stream.ring, stream.freed, stream.skips, none⟩ burst

def perform (setup : Setup) (source : DpdkSource) : Action → Option DpdkSource
  | .arrive numStream m =>
    let stream := source.streams numStream
    let stream := { stream with waiting := stream.waiting ++ [m]
                                arrived := stream.arrived ++ [m] }
    some { source with streams := Function.update source.streams numStream stream }
  | .rxThread numStream nbRx =>
    let stream := source.streams numStream
    if size : nbRx ≤ stream.waiting.length ∧ nbRx ≤ 32 then
      let thread := iterate setup source numStream
        ⟨stream.waiting.take nbRx, (List.length_take_le _ _).trans size.2⟩
      let stream := { poll .rxThread nbRx stream with
                        seq := thread.seq, ring := thread.ring
                        freed := thread.freed, skips := thread.skips }
      some ⟨Function.update source.streams numStream stream, thread.totals, thread.escaped⟩
    else none
  | .getSamples numStream numberOfSamples nbRx samples =>
    let stream := source.streams numStream
    if nbRx ≤ stream.waiting.length ∧ nbRx ≤ packetsToDequeue numberOfSamples then
      let burst := stream.waiting.take nbRx
      let decoding := getSamples setup.parser burst samples
      let call : Call := ⟨burst, decoding.totalSamplesReceived, decoding.samples⟩
      let stream := { poll .getSamples nbRx stream with
                        freed := stream.freed ++ decoding.freed
                        calls := stream.calls ++ [call] }
      some { source with streams := Function.update source.streams numStream stream }
    else none

/-- A step is taken by a stream that exists, as long as the process lives. -/
def step (setup : Setup) (source : DpdkSource) (action : Action) : Option DpdkSource :=
  if source.terminated = none ∧ action.numStream < setup.numStreams then
    perform setup source action
  else none

theorem decodeLoop_total (parser : HrzrParser) (burst : List Mbuf) (packetIdx : Nat)
    (decoding : Decoding) : (decodeLoop parser burst packetIdx decoding).totalSamplesReceived =
      decoding.totalSamplesReceived + burst.length * samplesPerPacket := by
  induction burst generalizing packetIdx decoding with
  | nil => simp [decodeLoop]
  | cons m rest ih =>
    rw [decodeLoop, ih, parsePayloadSamples_total, List.length_cons, Nat.succ_mul,
      Nat.add_assoc, Nat.add_comm samplesPerPacket]

theorem decodeLoop_freed (parser : HrzrParser) (burst : List Mbuf) (packetIdx : Nat)
    (decoding : Decoding) :
    (decodeLoop parser burst packetIdx decoding).freed = decoding.freed ++ burst := by
  induction burst generalizing packetIdx decoding with
  | nil => simp [decodeLoop]
  | cons m rest ih => rw [decodeLoop, ih, List.append_assoc, List.singleton_append]

theorem decodeLoop_samples (parser : HrzrParser) (burst : List Mbuf) (packetIdx : Nat)
    (decoding : Decoding) : (decodeLoop parser burst packetIdx decoding).samples =
      parseBlocks parser (burst.map payloadOf) packetIdx decoding.samples := by
  induction burst generalizing packetIdx decoding with
  | nil => rfl
  | cons m rest ih => rw [decodeLoop, ih, List.map_cons, parseBlocks]

/-- Each frame's block receives that frame's samples; cells outside the burst's
blocks keep theirs. -/
theorem getSamples_cells (parser : HrzrParser) (burst : List Mbuf) (samples : SampleBuffer)
    (index : Nat) : (getSamples parser burst samples).samples.cells index =
      (burst[index / samplesPerPacket]?).elim (samples.cells index)
        fun m => decoded parser (payloadOf m) (index % samplesPerPacket) := by
  rw [getSamples, decodeLoop_samples, parseBlocks_cells, if_pos (Nat.zero_le _), Nat.sub_zero,
    List.getElem?_map]
  cases burst[index / samplesPerPacket]? <;> rfl

theorem getSamples_written (parser : HrzrParser) (burst : List Mbuf) (samples : SampleBuffer)
    (index : Nat) : index ∈ (getSamples parser burst samples).samples.written ↔
      index ∈ samples.written ∨ index / samplesPerPacket < burst.length := by
  rw [getSamples, decodeLoop_samples, parseBlocks_written, List.length_map, Nat.zero_add,
    and_iff_right (Nat.zero_le _)]

theorem getSamples_total (parser : HrzrParser) (burst : List Mbuf) (samples : SampleBuffer) :
    (getSamples parser burst samples).totalSamplesReceived =
      burst.length * samplesPerPacket := by
  rw [getSamples, decodeLoop_total, Nat.zero_add]

/-- The cell of position `i` in block `p` holds that sample of frame `p`. -/
theorem getSamples_cell (parser : HrzrParser) {burst : List Mbuf} (samples : SampleBuffer)
    {p i : Nat} (bound : p < burst.length) (within : i < samplesPerPacket) :
    (getSamples parser burst samples).samples.cells (samplesPerPacket * p + i) =
      decoded parser (payloadOf burst[p]) i := by
  obtain ⟨block, position⟩ := cell_index p within
  rw [getSamples_cells, Nat.mul_comm, block, position, List.getElem?_eq_getElem bound,
    Option.elim_some]

theorem getSamples_blocks (parser : HrzrParser) (burst : List Mbuf) (samples : SampleBuffer) :
    Call.blocks ⟨burst, (getSamples parser burst samples).totalSamplesReceived,
      (getSamples parser burst samples).samples⟩ = burst.map (decodedBlock parser) := by
  rw [Call.blocks, getSamples_total, Nat.mul_div_cancel _ samplesPerPacket_pos, List.take_length]
  apply List.ext_getElem?
  intro p
  rw [List.getElem?_mapIdx, List.getElem?_map]
  cases found : burst[p]? with
  | none => rfl
  | some m =>
    obtain ⟨bound, m_eq⟩ := List.getElem?_eq_some_iff.mp found
    have block : (getSamples parser burst samples).samples.block p =
        (List.range samplesPerPacket).map (decoded parser (payloadOf m)) := by
      apply List.map_congr_left
      intro i within
      rw [Nat.mul_comm, getSamples_cell parser samples bound (List.mem_range.mp within), m_eq]
    simp only [Option.map_some, block, decodedBlock]

end DpdkSource
end JerryDriver
