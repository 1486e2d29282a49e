import JerryDriver.IqClient.SendPayload

/-! How many samples one `SendPayload` can take. The packet object has room for one full
packet, the copy into it for as many as there are: nothing compares the two. Up to a
full packet the object holds all of them and the datagram carries them. -/
namespace JerryDriver.IqClient
open ByteMemory Definitions HrzrParser HrzrUdpTransmitter

/-- The call copies inside the packet object, announces and sends its header and all of
the samples, and stays inside the object there too. -/
def SendsAll (transmitter : HrzrUdpTransmitter) (samples : List Sample) (stack : SampleArray) :
    Prop :=
  ∃ smpl packet sent after,
    interleave samples = .ok smpl ∧
    makeHrzrPacket (makeHrzrHeader transmitter (smpl.length / 2)) smpl stack = .ok packet ∧
    sendPayload transmitter samples stack = .ok (sent, after) ∧
    sent.length = 8 + 4 * samples.length ∧ sent.length ≤ packet.bytes.length ∧
    packet.totalPckLen.toNat = sent.length ∧
    ∀ i (bound : i < samples.length),
      (payloadAt (ofBytes sent) 8 (i * 2)).toInt = integerPart samples[i].re ∧
        (payloadAt (ofBytes sent) 8 (i * 2 + 1)).toInt = integerPart samples[i].im

variable {transmitter : HrzrUdpTransmitter} {samples : List Sample} {smpl : List Int16}
  {stack : SampleArray} {packet : HrzrPacket}

theorem makeHrzrPacket_inv {header : HrzrHeader}
    (made : makeHrzrPacket header smpl stack = .ok packet) :
    smpl.length ≤ samplesPerPacket * 2 ∧ packet.totalPckLen = header.totalPacketLength := by
  unfold makeHrzrPacket at made
  split at made
  · rename_i fits
    cases made
    exact ⟨fits, rfl⟩
  · contradiction

theorem makeHrzrHeader_length (fits : samples.length ≤ samplesPerPacket) :
    (makeHrzrHeader transmitter samples.length).totalPacketLength.toNat =
      8 + 4 * samples.length := by
  rw [samplesPerPacket_eq] at fits
  rw [makeHrzrHeader, sampleSizeInByte, UInt16.toNat_ofNat', Nat.mod_eq_of_lt (by omega),
    Nat.mul_comm]

theorem fits_of_sendsAll (all : SendsAll transmitter samples stack) :
    samples.length ≤ samplesPerPacket := by
  obtain ⟨smpl, packet, sent, after, interleaved, made, -⟩ := all
  have length := interleave_length interleaved
  have room := (makeHrzrPacket_inv made).1
  omega

theorem sendsAll_of_fits (transmitter : HrzrUdpTransmitter) (stack : SampleArray)
    (ranged : ∀ sample ∈ samples, Int16Ranged sample) (fits : samples.length ≤ samplesPerPacket) :
    SendsAll transmitter samples stack := by
  obtain ⟨smpl, interleaved, places⟩ := interleave_ranged ranged
  have length : smpl.length = samples.length * 2 := interleave_length interleaved
  have half : smpl.length / 2 = samples.length := by omega
  obtain ⟨packet, made, numbered, copied, sends⟩ :=
    @sendPacket_made transmitter smpl stack (by omega)
  have announced := (makeHrzrPacket_inv made).2
  rw [half] at announced sends
  have total : packet.totalPckLen.toNat = 8 + 4 * samples.length := by
    rw [announced, makeHrzrHeader_length fits]
  have inside : 8 + 4 * samples.length ≤ packet.bytes.length := by
    rw [samplesPerPacket_eq] at fits
    rw [length_bytes, packetSize]
    omega
  have emitted : sendPayload transmitter samples stack =
      .ok (packet.bytes.take (8 + 4 * samples.length),
        ⟨nextSequenceNumber transmitter.currentSequenceNumber⟩) := by
    rw [Nat.mul_comm 4]
    simp only [sendPayload, interleaved, sends, bind, Except.bind, Except.mapError,
      sampleSizeInByte]
  have size : (packet.bytes.take (8 + 4 * samples.length)).length = 8 + 4 * samples.length :=
    List.length_take_of_le inside
  refine ⟨smpl, packet, _, _, interleaved, made, emitted, size, ?_, ?_, ?_⟩
  · rwa [size]
  · rw [size, total]
  · intro i bound
    -- A word of the datagram is a word of the object's array, and that one of the vector.
    have word {position : Nat} (within : position < smpl.length) :
        payloadAt (ofBytes (packet.bytes.take (8 + 4 * samples.length))) 8 position =
          smpl.getD position 0 := by
      have room : position < samplesPerPacket * 2 := by omega
      have behind : 8 + 2 * position + 1 < 8 + 4 * samples.length := by omega
      rw [payloadAt, load16_take behind, ← payloadAt, payloadAt_packet room,
        getElem_congr_coll copied, Vector.getElem_ofFn, List.getD_eq_getElem _ _ within,
        List.getD_eq_getElem _ _ within]
    rw [word (by omega), word (by omega)]
    exact places i bound

/-- Samples in the 16-bit range are all sent, within the packet object, exactly when
there are no more of them than a packet holds. -/
theorem sendPayload_sendsAll_iff (transmitter : HrzrUdpTransmitter) (samples : List Sample)
    (stack : SampleArray) (ranged : ∀ sample ∈ samples, Int16Ranged sample) :
    SendsAll transmitter samples stack ↔ samples.length ≤ samplesPerPacket :=
  ⟨fits_of_sendsAll, sendsAll_of_fits transmitter stack ranged⟩

theorem three_samples_sendsAll :
    SendsAll ⟨4095⟩ [⟨5 / 2, -7⟩, ⟨-32768, 32767⟩, ⟨0, -1 / 3⟩] (Vector.replicate _ 1) := by
  refine (sendPayload_sendsAll_iff ⟨4095⟩ [⟨5 / 2, -7⟩, ⟨-32768, 32767⟩, ⟨0, -1 / 3⟩]
    (Vector.replicate _ 1) ?_).mpr (by decide)
  intro sample member
  simp only [List.mem_cons, List.not_mem_nil, or_false] at member
  rcases member with rfl | rfl | rfl
  all_goals exact ⟨by decide +kernel, by decide +kernel⟩

/-- One sample more than a packet holds: the copy writes behind the array. -/
theorem one_sample_more_overruns :
    (∀ sample ∈ List.replicate 367 (⟨0, 0⟩ : Sample), Int16Ranged sample) ∧
      ∀ stack, ¬ SendsAll .create (List.replicate 367 ⟨0, 0⟩) stack := by
  constructor
  · intro sample member
    rw [List.eq_of_mem_replicate member]
    exact ⟨by decide, by decide⟩
  · intro stack all
    have fits := fits_of_sendsAll all
    rw [List.length_replicate, samplesPerPacket_eq] at fits
    omega

end JerryDriver.IqClient
