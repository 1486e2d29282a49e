import JerryDriver.Sources.PacketLengths
import JerryDriver.Dpdk.BurstDecoding

/-! The widths of the counts in `getSamples`. The number of packets is an `int`, but DPDK
takes it as 16 bits, so the DPDK source asks for too few packets long before an index or
the sum of either source leaves the range of `int`. -/
namespace JerryDriver
open Definitions

/-- `INT_MAX` -/
def intMax : Nat := 2147483647

/-- What a call computes as `int` stays in range: the index of each sample that it assigns,
`packet_idx * SAMPLES_PER_PACKET + sample_idx_packet`, and `total_samples_received`. -/
structure IntRanged (samples : SampleBuffer) (totalSamplesReceived : Nat) : Prop where
  index : ∀ index ∈ samples.written, index ≤ intMax
  total : totalSamplesReceived ≤ intMax

/-- A request whose counts are right whatever is received. -/
structure Unwrapped (numberOfSamples : Nat) : Prop where
  packets : DpdkSource.packetsToDequeue numberOfSamples = numberOfSamples / samplesPerPacket + 1
  fetched : ∀ (setup : DpdkSource.Setup) (source : DpdkSource) numStream samples,
    source.terminated = none → numStream < setup.numStreams →
    0 < (source.streams numStream).waiting.length →
    ∃ after, DpdkSource.step setup source (.getSamples numStream numberOfSamples 1 samples) =
      some after
  dpdk : ∀ parser cells burst, burst.length ≤ DpdkSource.packetsToDequeue numberOfSamples →
    IntRanged (DpdkSource.getSamples parser burst ⟨cells, []⟩).samples
      (DpdkSource.getSamples parser burst ⟨cells, []⟩).totalSamplesReceived
  udp : ∀ (source : UdpSource) cells received,
    IntRanged (source.getSamples numberOfSamples received ⟨cells, []⟩).samples
      (source.getSamples numberOfSamples received ⟨cells, []⟩).totalSamplesReceived

variable {parser : HrzrParser} {cells : Nat → Sample} {numberOfSamples : Nat}

/-- Indices in blocks below a packet count whose samples an `int` can count. -/
private theorem index_le_intMax {index packets : Nat} (block : index / samplesPerPacket < packets)
    (fits : packets * samplesPerPacket ≤ intMax) : index ≤ intMax :=
  Nat.le_of_lt (((Nat.div_lt_iff_lt_mul samplesPerPacket_pos).mp block).trans_le fits)

namespace DpdkSource

theorem packetsToDequeue_lt (numberOfSamples : Nat) : packetsToDequeue numberOfSamples < 65536 :=
  Nat.mod_lt _ (by decide)

theorem packetsToDequeue_iff :
    packetsToDequeue numberOfSamples = numberOfSamples / samplesPerPacket + 1 ↔
      numberOfSamples / samplesPerPacket + 1 < 65536 := by
  refine ⟨fun same => ?_, packetsToDequeue_eq⟩
  rw [← same]
  exact packetsToDequeue_lt numberOfSamples

/-- No burst that 16 bits can ask for brings too many samples. -/
theorem getSamples_ranged {burst : List Mbuf}
    (asked : burst.length ≤ packetsToDequeue numberOfSamples) :
    IntRanged (getSamples parser burst ⟨cells, []⟩).samples
      (getSamples parser burst ⟨cells, []⟩).totalSamplesReceived := by
  have counted : burst.length * samplesPerPacket ≤ intMax := by
    have narrow := asked.trans_lt (packetsToDequeue_lt numberOfSamples)
    rw [samplesPerPacket_eq, intMax]
    omega
  constructor
  · intro index written
    rw [getSamples_written] at written
    rcases written with earlier | block
    · contradiction
    · exact index_le_intMax block counted
  · rwa [getSamples_total]

/-- At a multiple of 65536 packets the poll is asked for none and fetches nothing. -/
theorem fetches_nothing {setup : Setup} {source after : DpdkSource} {numStream nbRx : Nat}
    {samples : SampleBuffer} (none_ : packetsToDequeue numberOfSamples = 0)
    (taken : step setup source (.getSamples numStream numberOfSamples nbRx samples) = some after) :
    nbRx = 0 := by
  unfold step perform at taken
  split at taken
  · dsimp only at taken
    split at taken
    · rename_i polled
      rw [none_] at polled
      exact Nat.le_zero.mp polled.2
    · contradiction
  · contradiction

end DpdkSource

namespace UdpSource

/-- The most that a call can count, when every turn of its loop brings a data packet. -/
theorem getSamples_full (source : UdpSource) (numberOfSamples : Nat) (samples : SampleBuffer) :
    (source.getSamples numberOfSamples
      (List.replicate (numberOfSamples / samplesPerPacket + 1)
        (.datagram (List.replicate packetSize 0))) samples).totalSamplesReceived =
      (numberOfSamples / samplesPerPacket + 1) * samplesPerPacket := by
  have decodes : Decodes (List.replicate packetSize 0) :=
    ⟨Nat.le_of_eq List.length_replicate.symm, by decide⟩
  have heard_ := heard_datagrams (List.replicate (numberOfSamples / samplesPerPacket + 1)
    (List.replicate packetSize 0)) (numberOfSamples / samplesPerPacket + 1)
  rw [List.map_replicate, List.take_of_length_le (Nat.le_of_eq List.length_replicate)] at heard_
  have total := (@receiveLoop_samples source.parser _ _ 0 ⟨source.buf, samples, 0, none⟩ rfl
    (by
      rw [heard_]
      intro payload member
      rw [List.eq_of_mem_replicate member]
      exact decodes.passes)).2.1
  rw [heard_, List.filter_replicate_of_pos (by simpa using decodes), List.length_replicate,
    Nat.zero_add] at total
  exact total

/-- The UDP source stays within `int` up to the last whole packet that `int` can count. -/
theorem getSamples_ranged_iff (numberOfSamples : Nat) :
    (∀ (source : UdpSource) cells received,
      IntRanged (source.getSamples numberOfSamples received ⟨cells, []⟩).samples
        (source.getSamples numberOfSamples received ⟨cells, []⟩).totalSamplesReceived) ↔
      (numberOfSamples / samplesPerPacket + 1) * samplesPerPacket ≤ intMax := by
  constructor
  · intro ranged
    have total := (ranged ⟨.unit, fun _ => 0⟩ (fun _ => ⟨0, 0⟩)
      (List.replicate (numberOfSamples / samplesPerPacket + 1)
        (.datagram (List.replicate packetSize 0)))).total
    rwa [getSamples_full] at total
  · intro fits source cells received
    constructor
    · intro index written
      rw [getSamples, receiveLoop_written _ _ _ _ rfl] at written
      rcases written with earlier | ⟨position, bound, block, -⟩
      · contradiction
      · rw [Nat.zero_add] at block
        exact index_le_intMax (block.trans_lt bound) fits
    · have total := @receiveLoop_total_le_packets source.parser received
        (numberOfSamples / samplesPerPacket + 1) 0 ⟨source.buf, ⟨cells, []⟩, 0, none⟩
      rw [Nat.zero_add] at total
      exact total.trans fits

end UdpSource

/-- The counts of a request are right exactly when its packet count fits in 16 bits. -/
theorem unwrapped_iff (numberOfSamples : Nat) :
    Unwrapped numberOfSamples ↔ numberOfSamples / samplesPerPacket + 1 < 65536 := by
  constructor
  · intro unwrapped
    exact DpdkSource.packetsToDequeue_iff.mp unwrapped.packets
  · intro fits
    refine ⟨DpdkSource.packetsToDequeue_eq fits, ?_, ?_, ?_⟩
    · intro setup source numStream samples running present waiting
      have polled : 1 ≤ (source.streams numStream).waiting.length ∧
          1 ≤ DpdkSource.packetsToDequeue numberOfSamples := by
        rw [DpdkSource.packetsToDequeue_eq fits]
        exact ⟨waiting, Nat.le_add_left 1 _⟩
      rw [DpdkSource.step, if_pos ⟨running, present⟩, DpdkSource.perform, if_pos polled]
      exact ⟨_, rfl⟩
    · intro parser cells burst asked
      exact DpdkSource.getSamples_ranged asked
    · refine (UdpSource.getSamples_ranged_iff numberOfSamples).mpr ?_
      rw [samplesPerPacket_eq] at fits ⊢
      rw [intMax]
      omega

/-- A request of 65535 whole packets: DPDK is asked for 65536 of them in 16 bits, which
are none, so a call fetches nothing whatever is waiting. -/
theorem whole_packets_wrap : DpdkSource.packetsToDequeue 23985810 = 0 ∧
    23985810 / samplesPerPacket + 1 = 65536 ∧ 23985810 ≤ intMax ∧
    (∀ setup source after numStream nbRx samples,
      DpdkSource.step setup source (.getSamples numStream 23985810 nbRx samples) = some after →
        nbRx = 0) ∧
    ¬ Unwrapped 23985810 := by
  have none_ : DpdkSource.packetsToDequeue 23985810 = 0 := rfl
  refine ⟨none_, rfl, by decide, ?_, ?_⟩
  · intro setup source after numStream nbRx samples taken
    exact DpdkSource.fetches_nothing none_ taken
  · intro unwrapped
    have packets := unwrapped.packets
    rw [none_] at packets
    contradiction

end JerryDriver
