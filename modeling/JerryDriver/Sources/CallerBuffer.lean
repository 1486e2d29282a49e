import JerryDriver.Dpdk.Source
import JerryDriver.Udp.Source

/-! The caller of `getSamples` has room for as many samples as it asks for. Both sources
round the request up to a whole packet more than fits, so the room suffices exactly
when that last packet brings nothing. -/
namespace JerryDriver
open Definitions

/-- A call with room for `numberOfSamples` assigned no index behind it, and if it has
returned, counted no more. -/
structure Respects (numberOfSamples : Nat) (samples : SampleBuffer) (returned : Option Nat) :
    Prop where
  written : ∀ index ∈ samples.written, index < numberOfSamples
  count : ∀ total, returned = some total → total ≤ numberOfSamples

def UdpSource.Reception.returned (reception : UdpSource.Reception) : Option Nat :=
  match reception.ending with
  | some .returned => some reception.totalSamplesReceived
  | _ => none

theorem returned_total {reception : UdpSource.Reception} {total : Nat}
    (returned : reception.returned = some total) : total = reception.totalSamplesReceived := by
  unfold UdpSource.Reception.returned at returned
  split at returned
  · exact (Option.some.inj returned).symm
  · contradiction

variable {parser : HrzrParser} {cells : Nat → Sample} {numberOfSamples : Nat}

private theorem lt_of_block_lt (index : Nat)
    (earlier : index / samplesPerPacket < numberOfSamples / samplesPerPacket) :
    index < numberOfSamples := by
  by_contra beyond
  exact absurd (Nat.div_le_div_right (Nat.le_of_not_lt beyond)) (Nat.not_le_of_lt earlier)

/-- The last index of the first block that does not fit. -/
private theorem last_block (numberOfSamples : Nat) :
    numberOfSamples ≤ (numberOfSamples / samplesPerPacket) * samplesPerPacket + 365 ∧
      ((numberOfSamples / samplesPerPacket) * samplesPerPacket + 365) / samplesPerPacket =
        numberOfSamples / samplesPerPacket := by
  rw [samplesPerPacket_eq]
  omega

theorem dpdk_respects (burst : List Mbuf) :
    Respects numberOfSamples (DpdkSource.getSamples parser burst ⟨cells, []⟩).samples
      (some (DpdkSource.getSamples parser burst ⟨cells, []⟩).totalSamplesReceived) ↔
      burst.length ≤ numberOfSamples / samplesPerPacket := by
  constructor
  · intro respects
    have count := respects.count _ rfl
    rwa [DpdkSource.getSamples_total, ← Nat.le_div_iff_mul_le samplesPerPacket_pos] at count
  · intro fits
    constructor
    · intro index written
      rw [DpdkSource.getSamples_written] at written
      rcases written with earlier | block
      · contradiction
      · exact lt_of_block_lt index (by omega)
    · intro total returned
      rw [← Option.some.inj returned, DpdkSource.getSamples_total]
      exact (Nat.le_div_iff_mul_le samplesPerPacket_pos).mp fits

theorem udp_respects (source : UdpSource) (received : List UdpSource.Received) :
    Respects numberOfSamples (source.getSamples numberOfSamples received ⟨cells, []⟩).samples
      (source.getSamples numberOfSamples received ⟨cells, []⟩).returned ↔
      ¬ UdpSource.Reaches received (numberOfSamples / samplesPerPacket) := by
  constructor
  · intro respects last
    obtain ⟨beyond, block⟩ := last_block numberOfSamples
    have written : numberOfSamples / samplesPerPacket * samplesPerPacket + 365 ∈
        (source.getSamples numberOfSamples received ⟨cells, []⟩).samples.written := by
      rw [UdpSource.getSamples, UdpSource.receiveLoop_written _ _ _ _ rfl, block]
      exact .inr ⟨_, Nat.lt_succ_self _, (Nat.zero_add _).symm, last⟩
    exact absurd (respects.written _ written) (Nat.not_lt_of_le beyond)
  · intro last
    constructor
    · intro index written
      rw [UdpSource.getSamples, UdpSource.receiveLoop_written _ _ _ _ rfl] at written
      rcases written with earlier | ⟨position, bound, block, reaches⟩
      · contradiction
      · rw [Nat.zero_add] at block
        have other : position ≠ numberOfSamples / samplesPerPacket := by
          rintro rfl
          exact last reaches
        exact lt_of_block_lt index (by omega)
    · intro total returned
      rw [returned_total returned]
      have bound := UdpSource.receiveLoop_total_le source.parser received
        (numberOfSamples / samplesPerPacket) 0 ⟨source.buf, ⟨cells, []⟩, 0, none⟩ last
      rw [Nat.zero_add] at bound
      exact bound.trans (Nat.div_mul_le_self _ _)

/-- The caller's room is respected by a DPDK call exactly when it polls no packet more
than fits, and by a UDP call exactly when the reception after as many packets as fit is
not both reached and a full data packet. -/
theorem callerBuffer_respected_iff (parser : HrzrParser) (source : UdpSource)
    (cells : Nat → Sample) (numberOfSamples : Nat) :
    (∀ burst : List Mbuf,
      Respects numberOfSamples (DpdkSource.getSamples parser burst ⟨cells, []⟩).samples
        (some (DpdkSource.getSamples parser burst ⟨cells, []⟩).totalSamplesReceived) ↔
      burst.length ≤ numberOfSamples / samplesPerPacket) ∧
    (∀ received : List UdpSource.Received,
      Respects numberOfSamples (source.getSamples numberOfSamples received ⟨cells, []⟩).samples
        (source.getSamples numberOfSamples received ⟨cells, []⟩).returned ↔
      ¬ UdpSource.Reaches received (numberOfSamples / samplesPerPacket)) :=
  ⟨dpdk_respects, udp_respects source⟩

/-- A caller with room for ten samples, as in the documented example, gets the 366 of
the one packet that either source asks for. -/
theorem room_for_ten_overrun : DpdkSource.packetsToDequeue 10 = 1 ∧
    ¬ Respects 10 (DpdkSource.getSamples .unit
        [.ofUdp 5000 (List.replicate 1472 0)] ⟨fun _ => ⟨0, 0⟩, []⟩).samples
      (some (DpdkSource.getSamples .unit
        [.ofUdp 5000 (List.replicate 1472 0)] ⟨fun _ => ⟨0, 0⟩, []⟩).totalSamplesReceived) ∧
    ¬ Respects 10 (UdpSource.getSamples ⟨.unit, fun _ => 0⟩ 10
        [.datagram (List.replicate 1472 0)] ⟨fun _ => ⟨0, 0⟩, []⟩).samples
      (UdpSource.getSamples ⟨.unit, fun _ => 0⟩ 10
        [.datagram (List.replicate 1472 0)] ⟨fun _ => ⟨0, 0⟩, []⟩).returned := by
  refine ⟨rfl, ?_, ?_⟩
  · rw [dpdk_respects]
    decide
  · rw [udp_respects, not_not]
    refine (UdpSource.reaches_zero _ []).mpr ⟨?_, by decide⟩
    rw [List.length_replicate, packetSize]

end JerryDriver
