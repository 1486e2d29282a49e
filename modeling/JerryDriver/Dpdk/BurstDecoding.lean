import JerryDriver.Dpdk.Source

/-! A burst of any size lands in the caller's buffer frame by frame: block `p` holds the
samples of frame `p`, the blocks lie end to end from the first sample on, and nothing
behind them is touched. -/
namespace JerryDriver.DpdkSource
open ByteMemory Definitions HrzrParser

/-- The real part at position `i` of a frame's payload, by the bytes of the frame. -/
def realPart (norm : ℚ) (m : Mbuf) (i : Nat) : ℚ :=
  signed16 (m.data (HrzrPacketAllHeaders.size + 4 * i))
    (m.data (HrzrPacketAllHeaders.size + 4 * i + 1)) / norm

def imagPart (norm : ℚ) (m : Mbuf) (i : Nat) : ℚ :=
  signed16 (m.data (HrzrPacketAllHeaders.size + 4 * i + 2))
    (m.data (HrzrPacketAllHeaders.size + 4 * i + 3)) / norm

/-- What a call makes of the burst it polled into a buffer with the given contents. -/
structure DecodedExactly (norm : ℚ) (burst : List Mbuf) (before after : SampleBuffer)
    (returned : Nat) : Prop where
  total : returned = samplesPerPacket * burst.length
  real : ∀ p (bound : p < burst.length), ∀ i < samplesPerPacket,
    (after.cells (samplesPerPacket * p + i)).re = realPart norm burst[p] i
  imag : ∀ p (bound : p < burst.length), ∀ i < samplesPerPacket,
    (after.cells (samplesPerPacket * p + i)).im = imagPart norm burst[p] i
  inside : ∀ m ∈ burst, ∀ i < samplesPerPacket, HrzrPacketAllHeaders.size + 4 * i + 3 < m.pktLen
  beyond : ∀ index, samplesPerPacket * burst.length ≤ index →
    after.cells index = before.cells index

theorem decoded_re (parser : HrzrParser) (m : Mbuf) (i : Nat) :
    (decoded parser (payloadOf m) i).re = realPart parser.norm m i := by
  have place : 2 * (i * 2) = 4 * i := by omega
  simp only [decoded, payloadOf, payloadAt, load16_signed, realPart, place]

theorem decoded_im (parser : HrzrParser) (m : Mbuf) (i : Nat) :
    (decoded parser (payloadOf m) i).im = imagPart parser.norm m i := by
  have place : HrzrPacketAllHeaders.size + 2 * (i * 2 + 1) =
      HrzrPacketAllHeaders.size + 4 * i + 2 := by omega
  simp only [decoded, payloadOf, payloadAt, load16_signed, imagPart, place, Nat.add_assoc]

theorem getSamples_beyond (parser : HrzrParser) {burst : List Mbuf} (samples : SampleBuffer)
    {index : Nat} (behind : samplesPerPacket * burst.length ≤ index) :
    (getSamples parser burst samples).samples.cells index = samples.cells index := by
  have block : burst.length ≤ index / samplesPerPacket :=
    (Nat.le_div_iff_mul_le samplesPerPacket_pos).mpr (by rwa [Nat.mul_comm])
  rw [getSamples_cells, List.getElem?_eq_none block, Option.elim_none]

theorem getSamples_freed (parser : HrzrParser) (burst : List Mbuf) (samples : SampleBuffer) :
    (getSamples parser burst samples).freed = burst :=
  decodeLoop_freed ..

theorem getSamples_exact (parser : HrzrParser) {burst : List Mbuf} (samples : SampleBuffer)
    (hold : ∀ m ∈ burst, HrzrPacketAllHeaders.size + payloadSize ≤ m.pktLen) :
    DecodedExactly parser.norm burst samples (getSamples parser burst samples).samples
      (getSamples parser burst samples).totalSamplesReceived where
  total := by rw [getSamples_total, Nat.mul_comm]
  real p bound i within := by rw [getSamples_cell parser samples bound within, decoded_re]
  imag p bound i within := by rw [getSamples_cell parser samples bound within, decoded_im]
  inside m member i within := by
    have long := hold m member
    rw [samplesPerPacket_eq] at within
    rw [payloadSize] at long
    omega
  beyond index behind := getSamples_beyond parser samples behind

/-- The packet count reaches the poll unchanged as long as it fits its 16 bits. -/
theorem packetsToDequeue_eq {numberOfSamples : Nat}
    (fits : numberOfSamples / samplesPerPacket + 1 < 65536) :
    packetsToDequeue numberOfSamples = numberOfSamples / samplesPerPacket + 1 :=
  Nat.mod_eq_of_lt fits

/-- A call of a running source decodes the `k` frames it polls exactly, and frees each
of them once. -/
theorem getSamples_decodes_burst (setup : Setup) (source : DpdkSource)
    {numStream numberOfSamples k : Nat} (samples : SampleBuffer)
    (running : source.terminated = none) (present : numStream < setup.numStreams)
    (fits : numberOfSamples / samplesPerPacket + 1 < 65536)
    (asked : k ≤ numberOfSamples / samplesPerPacket + 1)
    (waiting : k ≤ (source.streams numStream).waiting.length)
    (hold : ∀ m ∈ (source.streams numStream).waiting.take k,
      HrzrPacketAllHeaders.size + payloadSize ≤ m.pktLen) :
    ∃ after call, step setup source (.getSamples numStream numberOfSamples k samples) = some after ∧
      call.frames = (source.streams numStream).waiting.take k ∧ call.frames.length = k ∧
      DecodedExactly setup.parser.norm call.frames samples call.samples call.returned ∧
      (after.streams numStream).calls = (source.streams numStream).calls ++ [call] ∧
      (after.streams numStream).freed = (source.streams numStream).freed ++ call.frames := by
  have polled : k ≤ (source.streams numStream).waiting.length ∧
      k ≤ packetsToDequeue numberOfSamples :=
    ⟨waiting, by rwa [packetsToDequeue_eq fits]⟩
  have taken : ∃ after, step setup source (.getSamples numStream numberOfSamples k samples) =
      some after := by
    rw [step, if_pos ⟨running, present⟩, perform, if_pos polled]
    exact ⟨_, rfl⟩
  obtain ⟨after, taken⟩ := taken
  refine ⟨after, ⟨_, _, _⟩, taken, rfl, List.length_take_of_le waiting,
    getSamples_exact setup.parser samples hold, ?_⟩
  rw [step, if_pos ⟨running, present⟩, perform, if_pos polled] at taken
  rw [← Option.some.inj taken]
  simp only [Function.update_self, poll, getSamples_freed, and_self]

/-- A full frame with the same byte everywhere in its datagram. -/
def uniformFrame (byte : UInt8) : Mbuf := .ofUdp 5000 (List.replicate 1472 byte)

theorem getSamples_decodes_two_of_three :
    ∃ after call, step ⟨⟨2, by decide⟩, 1, fun _ => 5000⟩
        ⟨fun _ => { Stream.start with waiting := [1, 2, 3].map uniformFrame }, ⟨0, 0⟩, none⟩
        (.getSamples 0 400 2 ⟨fun _ => ⟨7, 7⟩, []⟩) = some after ∧
      call.frames = [uniformFrame 1, uniformFrame 2] ∧ call.frames.length = 2 ∧
      DecodedExactly 2 call.frames ⟨fun _ => ⟨7, 7⟩, []⟩ call.samples call.returned ∧
      (after.streams 0).calls = [call] ∧ (after.streams 0).freed = call.frames :=
  getSamples_decodes_burst ⟨⟨2, by decide⟩, 1, fun _ => 5000⟩
    ⟨fun _ => { Stream.start with waiting := [1, 2, 3].map uniformFrame }, ⟨0, 0⟩, none⟩
    ⟨fun _ => ⟨7, 7⟩, []⟩ rfl (Nat.lt_succ_self 0) (by decide) (by decide) (Nat.le_succ 2)
    (fun m member => by
      obtain ⟨byte, -, rfl⟩ := List.mem_map.mp (List.mem_of_mem_take member)
      rw [uniformFrame, Mbuf.ofUdp, List.length_replicate]
      exact Nat.le_of_ble_eq_true rfl)

end JerryDriver.DpdkSource
