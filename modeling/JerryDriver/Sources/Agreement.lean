import JerryDriver.Dpdk.Source
import JerryDriver.Udp.Source

/-! One datagram at both sources. The DPDK path accepts exact lengths of both data
types and decodes behind the header; the UDP path takes at least as many bytes of plain
data packets and decodes from the start of the datagram. -/
namespace JerryDriver
open ByteMemory Definitions HrzrHeaderParser HrzrParser HrzrPacketAllHeaders

/-- The block at a packet's place that the UDP loop body makes of a datagram and counts. -/
def UdpSource.blockOf (parser : HrzrParser) (packetIdx : Nat) (payload : List UInt8)
    (reception : Reception) : Option (List Sample) :=
  let after := processPacket parser packetIdx payload reception
  if after.totalSamplesReceived = reception.totalSamplesReceived then none
  else some (after.samples.block packetIdx)

/-- The block at a packet's place that the DPDK path makes of a frame: acceptance by
`RXThread`, decoding by `getSamples`. -/
def DpdkSource.blockOf (parser : HrzrParser) (udpRxPort : UInt16) (packetIdx : Nat) (m : Mbuf)
    (samples : SampleBuffer) : Option (List Sample) :=
  if Accepted udpRxPort m then
    some ((parsePayloadSamples parser packetIdx (payloadOf m) samples).2.block packetIdx)
  else none

variable {parser : HrzrParser} {packetIdx : Nat} {payload : List UInt8} {m : Mbuf} {port : UInt16}

open Classical in
/-- The UDP path decodes the datagram's first 1464 bytes, header included. -/
theorem udp_blockOf (reception : UdpSource.Reception) :
    UdpSource.blockOf parser packetIdx payload reception =
      if UdpSource.Decodes payload then
        some ((List.range samplesPerPacket).map (decoded parser (payloadAt (ofBytes payload) 0)))
      else none := by
  have processed : UdpSource.Processed parser packetIdx payload reception
    (UdpSource.processPacket parser packetIdx payload reception) :=
    UdpSource.processPacket_processed
  unfold UdpSource.blockOf
  generalize UdpSource.processPacket parser packetIdx payload reception = after at processed
  cases processed with
  | decoded decodes buf bytes samples total ending =>
    have counted : after.totalSamplesReceived ≠ reception.totalSamplesReceived := by
      rw [total, samplesPerPacket_eq]
      omega
    have same : ∀ k < payloadSize, buf (0 + k) = ofBytes payload (0 + k) := by
      intro k bound
      exact bytes _ (by rw [payloadSize] at bound; rw [packetSize]; omega)
    simp only [counted, decodes, if_false, if_true, samples, parsePayloadSamples_block,
      decoded_block_inj.mpr same]
  | skipped refused passes samples total ending => simp only [total, refused, if_true, if_false]
  | escaped refused samples total ending =>
    have stays : ¬ UdpSource.Decodes payload := fun decodes => refused decodes.passes
    simp only [total, stays, if_true, if_false]

theorem Carries.header (carried : Carries m port payload) (long : packetSize ≤ payload.length) :
    m.headers.hrzr = UdpSource.headerOf payload := by
  apply load64_congr
  intro i bound
  have inside : i < payload.length := Nat.lt_of_lt_of_le bound (Nat.le_trans (by decide) long)
  rw [carried.bytes i inside, Nat.zero_add, ofBytes, List.getD_eq_getElem _ _ inside]

/-- The DPDK path decodes the bytes behind the header of an accepted datagram. -/
theorem Carries.dpdk_blockOf (carried : Carries m port payload) (samples : SampleBuffer) :
    DpdkSource.blockOf parser port packetIdx m samples =
      if payload.length = packetSize ∧
          (getControlFromHeader (UdpSource.headerOf payload) = .ok .data ∨
            getControlFromHeader (UdpSource.headerOf payload) = .ok .dataEndOfBurst) then
        some ((List.range samplesPerPacket).map (decoded parser (payloadAt (ofBytes payload) 8)))
      else none := by
  by_cases full : payload.length = packetSize
  · have same : ∀ k < payloadSize, m.data (size + k) = ofBytes payload (8 + k) := by
      intro k bound
      have inside : 8 + k < payload.length := by
        rw [full, packetSize]
        rw [payloadSize] at bound
        omega
      rw [size, Nat.add_assoc, carried.bytes _ inside, ofBytes, List.getD_eq_getElem _ _ inside]
    simp only [DpdkSource.blockOf, carried.accepted_iff,
      carried.header (Nat.le_of_eq full.symm), parsePayloadSamples_block, DpdkSource.payloadOf,
      decoded_block_inj.mpr same]
  · simp only [DpdkSource.blockOf, carried.accepted_iff, full, false_and, if_false]

/-- The two sources agree on a datagram of a recognised type exactly when neither takes
it (it is short, or neither data type, or an end of burst that is too long for the DPDK
path), or it is plain data of full length whose bytes repeat with a period of eight. -/
theorem sources_agree_iff (parser : HrzrParser) (packetIdx : Nat) (reception : UdpSource.Reception)
    (samples : SampleBuffer) (carried : Carries m port payload) {type : PacketType}
    (recognised : getControlFromHeader (UdpSource.headerOf payload) = .ok type) :
    UdpSource.blockOf parser packetIdx payload reception =
      DpdkSource.blockOf parser port packetIdx m samples ↔
    payload.length < packetSize ∨ (type ≠ .data ∧ type ≠ .dataEndOfBurst) ∨
      (type = .dataEndOfBurst ∧ packetSize < payload.length) ∨
      (type = .data ∧ payload.length = packetSize ∧
        ∀ k < payloadSize, payload.getD k 0 = payload.getD (8 + k) 0) := by
  have period : (List.range samplesPerPacket).map (decoded parser (payloadAt (ofBytes payload) 0)) =
      (List.range samplesPerPacket).map (decoded parser (payloadAt (ofBytes payload) 8)) ↔
      ∀ k < payloadSize, payload.getD k 0 = payload.getD (8 + k) 0 := by
    rw [decoded_block_inj]
    simp only [ofBytes, Nat.zero_add]
  rw [udp_blockOf, carried.dpdk_blockOf]
  simp only [UdpSource.Decodes, recognised, Except.ok.injEq, ← period]
  rcases Nat.lt_trichotomy payload.length packetSize with short | full | long
  · simp only [short, Nat.not_le_of_lt short, Nat.ne_of_lt short, false_and, if_false, true_or]
  · rw [full]
    cases type <;> simp
  · have refused : ¬ payload.length < packetSize := Nat.not_lt_of_lt long
    simp only [long, refused, Nat.le_of_lt long, Nat.ne_of_gt long, false_and, true_and, if_false,
      and_false, and_true, false_or, or_false]
    cases type <;> simp

/-- Plain data of equal bytes is decoded by both, to the same samples. -/
theorem sources_agree_on_equal_bytes : ∃ block,
    UdpSource.blockOf .unit 2 (List.replicate 1472 3)
      ⟨fun _ => 0, ⟨fun _ => ⟨0, 0⟩, []⟩, 0, none⟩ = some block ∧
    DpdkSource.blockOf .unit 5000 2 (.ofUdp 5000 (List.replicate 1472 3))
      ⟨fun _ => ⟨0, 0⟩, []⟩ = some block := by
  have control : getControlFromHeader (UdpSource.headerOf (List.replicate 1472 3)) = .ok .data := by
    decide
  have full : (List.replicate 1472 (3 : UInt8)).length = packetSize := List.length_replicate
  have period : ∀ k < payloadSize,
      (List.replicate 1472 (3 : UInt8)).getD k 0 = (List.replicate 1472 3).getD (8 + k) 0 := by
    intro k bound
    rw [payloadSize] at bound
    rw [@List.getD_replicate _ (3 : UInt8) 0 k 1472 (by omega),
      @List.getD_replicate _ (3 : UInt8) 0 (8 + k) 1472 (by omega)]
  have agree := (sources_agree_iff .unit 2 ⟨fun _ => 0, ⟨fun _ => ⟨0, 0⟩, []⟩, 0, none⟩
    ⟨fun _ => ⟨0, 0⟩, []⟩ (Mbuf.carries_ofUdp 5000 _) control).mpr
    (.inr (.inr (.inr ⟨rfl, full, period⟩)))
  rw [← agree, udp_blockOf, if_pos ⟨Nat.le_of_eq full.symm, control⟩]
  exact ⟨_, rfl, rfl⟩

/-- An end of burst reaches the caller on the DPDK path only; and of a plain data packet
the UDP path decodes the header as the first two samples. -/
theorem end_of_burst_and_header_differ :
    UdpSource.blockOf .unit 0 (0x10 :: List.replicate 1471 0)
        ⟨fun _ => 0, ⟨fun _ => ⟨0, 0⟩, []⟩, 0, none⟩ ≠
      DpdkSource.blockOf .unit 5000 0 (.ofUdp 5000 (0x10 :: List.replicate 1471 0))
        ⟨fun _ => ⟨0, 0⟩, []⟩ ∧
    UdpSource.blockOf .unit 0 (List.replicate 8 0 ++ List.replicate 1464 1)
        ⟨fun _ => 0, ⟨fun _ => ⟨0, 0⟩, []⟩, 0, none⟩ ≠
      DpdkSource.blockOf .unit 5000 0
        (.ofUdp 5000 (List.replicate 8 0 ++ List.replicate 1464 1)) ⟨fun _ => ⟨0, 0⟩, []⟩ := by
  constructor
  · have control : getControlFromHeader (UdpSource.headerOf (0x10 :: List.replicate 1471 0)) =
        .ok .dataEndOfBurst := by decide
    have full : (0x10 :: List.replicate 1471 (0 : UInt8)).length = packetSize := by
      rw [List.length_cons, List.length_replicate, packetSize]
    have refused : ¬ UdpSource.Decodes (0x10 :: List.replicate 1471 0) := by
      rintro ⟨-, data⟩
      rw [control] at data
      cases data
    rw [udp_blockOf, (Mbuf.carries_ofUdp 5000 _).dpdk_blockOf, if_neg refused,
      if_pos ⟨full, .inr control⟩]
    exact (Option.some_ne_none _).symm
  · have control : getControlFromHeader (UdpSource.headerOf
        (List.replicate 8 0 ++ List.replicate 1464 1)) = .ok .data := by decide
    have full : (List.replicate 8 (0 : UInt8) ++ List.replicate 1464 1).length = packetSize := by
      rw [List.length_append, List.length_replicate, List.length_replicate, packetSize]
    rw [udp_blockOf, (Mbuf.carries_ofUdp 5000 _).dpdk_blockOf,
      if_pos ⟨Nat.le_of_eq full.symm, control⟩, if_pos ⟨full, .inl control⟩, ne_eq,
      Option.some.injEq, decoded_block_inj]
    intro same
    exact absurd (same 0 (by decide)) (by decide)

end JerryDriver
