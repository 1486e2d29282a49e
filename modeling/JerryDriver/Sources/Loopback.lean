import JerryDriver.Hrzr.HeaderFormat
import JerryDriver.IqClient.SendPayload
import JerryDriver.Udp.Calls

/-! The transmitter heard by the UDP source. The transmitter lays its header out in the
host's byte order and the source hands its buffer to the parser from the header on, so what
becomes of a datagram hangs on its number, and a block that is decoded begins with the
header. -/
namespace JerryDriver.Loopback
open ByteMemory Definitions HrzrHeaderParser HrzrParser HrzrUdpTransmitter UdpSource

/-- The datagrams of these numbers are taken for data. -/
def ReadAsData (number : Nat) : Prop := number % 256 / 16 = 0 ∨ number % 256 / 16 = 2

/-- The datagrams of these numbers have no control that the decoder knows. -/
def Unreadable (number : Nat) : Prop := number % 256 / 16 = 9 ∨ number % 256 / 16 = 11

instance : DecidablePred ReadAsData := fun _ => inferInstanceAs (Decidable (_ ∨ _))
instance : DecidablePred Unreadable := fun _ => inferInstanceAs (Decidable (_ ∨ _))

/-- A block as it is decoded: two samples that are the header, then the samples sent. -/
def shifted (parser : HrzrParser) (number : Nat) (words : List Int16) : (position : Nat) → Sample
  | 0 => ⟨number / parser.norm, packetSize / parser.norm⟩
  | 1 => ⟨0, 0⟩
  | position + 2 =>
    ⟨(words.getD (position * 2) 0).toInt / parser.norm,
      (words.getD (position * 2 + 1) 0).toInt / parser.norm⟩

/-- A packet that is filled with the words given. -/
structure Carries (packet : HrzrPacket) (number : Nat) (words : List Int16) : Prop where
  ctrlAndSeqNb : packet.ctrlAndSeqNb.toNat = number
  totalPckLen : packet.totalPckLen = 1472
  srcId : packet.srcId = 0
  samples : ∀ i (bound : i < samplesPerPacket * 2), packet.samples[i] = words.getD i 0

variable {packet : HrzrPacket} {number : Nat} {words : List Int16} {parser : HrzrParser}

theorem sendPacket_carries (transmitter : HrzrUdpTransmitter) (stack : SampleArray)
    (full : words.length = samplesPerPacket * 2) :
    ∃ packet, Carries packet transmitter.currentSequenceNumber.toNat words ∧
      sendPacket transmitter words stack =
        .ok (packet.bytes, ⟨nextSequenceNumber transmitter.currentSequenceNumber⟩) := by
  obtain ⟨packet, made, numbered, copied, emitted⟩ :=
    sendPacket_made transmitter stack (Nat.le_of_eq full)
  have half : words.length / 2 = samplesPerPacket := by omega
  have whole : packet.bytes.take (8 + words.length / 2 * sampleSizeInByte) = packet.bytes := by
    apply List.take_of_length_le
    rw [length_bytes, half]
    decide
  rw [whole] at emitted
  refine ⟨packet, ⟨congrArg UInt16.toNat numbered, ?_, ?_, fun i bound => ?_⟩, emitted⟩
  · rw [makeHrzrPacket, if_pos (Nat.le_of_eq full)] at made
    cases made
    simp only [makeHrzrHeader, half]
    rfl
  · rw [makeHrzrPacket, if_pos (Nat.le_of_eq full)] at made
    cases made
    rfl
  · have inside : i < words.length := by omega
    rw [getElem_congr_coll copied, Vector.getElem_ofFn, List.getD_eq_getElem _ _ inside,
      List.getD_eq_getElem _ _ inside]

/-- A run of full sends emits the packets that carry them, in order and numbered on. -/
theorem sendPackets_carry {calls : List (List Int16 × SampleArray)}
    (full : ∀ call ∈ calls, call.1.length = samplesPerPacket * 2)
    (transmitter : HrzrUdpTransmitter) (start : Nat)
    (counted : transmitter.currentSequenceNumber.toNat = start % 4096) :
    ∃ (packets : List HrzrPacket) (after : HrzrUdpTransmitter),
      sendPackets transmitter calls = .ok (packets.map HrzrPacket.bytes, after) ∧
      packets.length = calls.length ∧ ∀ i packet, packets[i]? = some packet →
        ∃ call, calls[i]? = some call ∧ Carries packet ((start + i) % 4096) call.1 := by
  induction calls generalizing transmitter start with
  | nil => exact ⟨[], transmitter, rfl, rfl, fun i packet found => by simp at found⟩
  | cons call rest ih =>
    obtain ⟨words, stack⟩ := call
    obtain ⟨packet, carries, emitted⟩ :=
      sendPacket_carries transmitter stack (full (words, stack) List.mem_cons_self)
    obtain ⟨others, after, run, count, following⟩ := ih
      (fun call member => full call (List.mem_cons_of_mem _ member))
      ⟨nextSequenceNumber transmitter.currentSequenceNumber⟩ (start + 1) (next_counter counted)
    refine ⟨packet :: others, after, ?_, congrArg Nat.succ count, fun i found here => ?_⟩
    · simp only [sendPackets, emitted, run, bind, Except.bind, pure, Except.pure, List.map_cons]
    · cases i with
      | zero =>
        cases Option.some.inj here
        rw [counted] at carries
        exact ⟨_, rfl, carries⟩
      | succ i =>
        obtain ⟨call, place, carried⟩ := following i found (by simpa using here)
        rw [Nat.add_right_comm] at carried
        exact ⟨call, by simpa using place, carried⟩

theorem headerOf_low (carries : Carries packet number words) :
    (headerOf packet.bytes).toNat % 256 = number % 256 := by
  have low := header_low packet (show 8 ≤ packetSize by decide)
  rw [List.take_of_length_le (Nat.le_of_eq (length_bytes packet)), carries.ctrlAndSeqNb] at low
  rw [headerOf]
  omega

theorem decodes_iff (carries : Carries packet number words) :
    Decodes packet.bytes ↔ ReadAsData number := by
  rw [Decodes, getControlFromHeader_data_iff, headerOf_low carries, ReadAsData, length_bytes]
  exact and_iff_right (Nat.le_refl _)

theorem controlNibble_nine (byte : Nat) (bound : byte < 256) :
    controlNibble byte = 9 ↔ byte / 16 = 9 ∨ byte / 16 = 11 := by
  rw [controlNibble]
  omega

theorem passes_iff (carries : Carries packet number words) :
    Passes (.datagram packet.bytes) ↔ ¬ Unreadable number := by
  have byte : number % 256 < 256 := Nat.mod_lt _ (by decide)
  have known : (∃ type, getControlFromHeader (headerOf packet.bytes) = .ok type) ↔
      controlNibble (number % 256) ≠ 9 := by
    rw [← headerOf_low carries]
    exact recognised_iff _
  rw [Unreadable, ← controlNibble_nine _ byte, Passes, known, length_bytes]
  exact ⟨fun held => held (Nat.le_refl _), fun held _ => held⟩

theorem toInt_of_small (word : UInt16) (small : word.toNat < 32768) :
    word.toInt16.toInt = word.toNat := by
  have signed : word.toInt16.toInt = word.toBitVec.toInt := rfl
  rw [signed, BitVec.toInt_eq_toNat_of_lt]
  · rfl
  · rw [UInt16.toNat_toBitVec]
    omega

/-- The words of a packet from its header on. -/
theorem header_words (packet : HrzrPacket) :
    payloadAt (ofBytes packet.bytes) 0 0 = packet.ctrlAndSeqNb.toInt16 ∧
      payloadAt (ofBytes packet.bytes) 0 1 = packet.totalPckLen.toInt16 := by
  have layout : packet.bytes = bytesOf 2 packet.ctrlAndSeqNb.toNat ++
      (bytesOf 2 packet.totalPckLen.toNat ++ (bytesOf 4 packet.srcId.toNat ++
        packet.samples.toList.flatMap fun sample => bytesOf 2 sample.toUInt16.toNat)) := by
    simp only [HrzrPacket.bytes, List.append_assoc]
  constructor
  · rw [payloadAt, layout, Nat.mul_zero, Nat.add_zero, load16_word]
  · rw [payloadAt, layout]
    exact congrArg UInt16.toInt16 ((load16_append (bytesOf 2 _) _ 0).trans (load16_word ..))

theorem source_words (none : packet.srcId = 0) :
    payloadAt (ofBytes packet.bytes) 0 2 = 0 ∧ payloadAt (ofBytes packet.bytes) 0 3 = 0 := by
  have layout : packet.bytes = (bytesOf 2 packet.ctrlAndSeqNb.toNat ++
      bytesOf 2 packet.totalPckLen.toNat) ++ (bytesOf 2 (0 : UInt16).toNat ++
        (bytesOf 2 (0 : UInt16).toNat ++
        packet.samples.toList.flatMap fun sample => bytesOf 2 sample.toUInt16.toNat)) := by
    simp only [HrzrPacket.bytes, none, List.append_assoc]
    rfl
  constructor
  · rw [payloadAt, layout]
    exact congrArg UInt16.toInt16 ((load16_append (_ ++ _) _ 0).trans (load16_word ..))
  · rw [payloadAt, layout]
    exact congrArg UInt16.toInt16
      ((load16_append (_ ++ _) _ 2).trans
        ((load16_append (bytesOf 2 _) _ 0).trans (load16_word ..)))

theorem decoded_packet (carries : Carries packet number words) (small : number < 4096)
    {position : Nat} (bound : position < samplesPerPacket) :
    decoded parser (payloadAt (ofBytes packet.bytes) 0) position =
      shifted parser number words position := by
  obtain ⟨first, second⟩ := header_words packet
  obtain ⟨third, fourth⟩ := source_words carries.srcId
  match position with
  | 0 =>
    have numbered : packet.ctrlAndSeqNb.toInt16.toInt = number := by
      rw [toInt_of_small _ (by rw [carries.ctrlAndSeqNb]; omega), carries.ctrlAndSeqNb]
    have length : packet.totalPckLen.toInt16.toInt = packetSize := by
      rw [carries.totalPckLen]
      rfl
    simp only [decoded, shifted, Nat.zero_mul, Nat.zero_add, first, second, numbered, length]
    rfl
  | 1 =>
    simp only [decoded, shifted, Nat.one_mul, third, fourth]
    simp
  | position + 2 =>
    have word {place : Nat} (inside : place < samplesPerPacket * 2) :
        payloadAt (ofBytes packet.bytes) 0 (place + 4) = words.getD place 0 := by
      rw [← carries.samples place inside, ← IqClient.payloadAt_packet inside, payloadAt, payloadAt]
      congr 2
      omega
    have even : (position + 2) * 2 = position * 2 + 4 := by omega
    have odd : position * 2 + 4 + 1 = position * 2 + 1 + 4 := by omega
    simp only [decoded, shifted, even, odd, word (show position * 2 < _ by omega),
      word (show position * 2 + 1 < _ by omega)]

/-! ## A call that hears them -/

/-- A call that has heard fewer datagrams than it asks for is waiting. -/
theorem receiveLoop_waits {payloads : List (List UInt8)} {packets packetIdx : Nat}
    {reception : Reception} (running : reception.ending = none)
    (fewer : payloads.length < packets)
    (passes : ∀ payload ∈ payloads, Passes (.datagram payload)) :
    (receiveLoop parser (payloads.map Received.datagram) packets packetIdx reception).ending =
      none := by
  induction payloads generalizing packets packetIdx reception with
  | nil =>
    cases packets with
    | zero => contradiction
    | succ packets => exact running
  | cons payload rest ih =>
    cases packets with
    | zero => contradiction
    | succ packets =>
      have goes : (processPacket parser packetIdx payload reception).ending = none :=
        (processPacket_passing (passes payload List.mem_cons_self)).2.2.trans running
      simp only [List.map_cons, receiveLoop, goes, Option.isSome_none, Bool.false_eq_true, if_false]
      exact ih goes (Nat.lt_of_succ_lt_succ fewer)
        fun other member => passes other (List.mem_cons_of_mem _ member)

def numberAt (start i : Nat) : Nat := (start + i) % 4096

/-- What a call that hears a run of full sends does where no number is unreadable. A block
that is taken for data arrives two samples late and without its last two. -/
structure Arrives (parser : HrzrParser) (calls : List (List Int16 × SampleArray))
    (start packets : Nat) (before : SampleBuffer) (after : Reception) : Prop where
  ending : after.ending = if packets ≤ calls.length then some .returned else none
  total : after.totalSamplesReceived = ((List.range (min packets calls.length)).filter
    fun i => ReadAsData (numberAt start i)).length * samplesPerPacket
  data : ∀ i < packets, ∀ call, calls[i]? = some call → ReadAsData (numberAt start i) →
    ∀ position < samplesPerPacket, after.samples.cells (i * samplesPerPacket + position) =
      shifted parser (numberAt start i) call.1 position
  rest : ∀ index, ¬ (index / samplesPerPacket < min packets calls.length ∧
      ReadAsData (numberAt start (index / samplesPerPacket))) →
    after.samples.cells index = before.cells index

/-- The packets of a run, as a call of the source hears them. -/
theorem getSamples_carried {calls : List (List Int16 × SampleArray)} {packets : List HrzrPacket}
    {start : Nat} (count : packets.length = calls.length)
    (carried : ∀ i packet, packets[i]? = some packet →
      ∃ call, calls[i]? = some call ∧ Carries packet (numberAt start i) call.1)
    (source : UdpSource) (numberOfSamples : Nat) (samples : SampleBuffer)
    (readable : ∀ i < min (numberOfSamples / samplesPerPacket + 1) calls.length,
      ¬ Unreadable (numberAt start i)) :
    Arrives source.parser calls start (numberOfSamples / samplesPerPacket + 1) samples
      (source.getSamples numberOfSamples ((packets.map HrzrPacket.bytes).map .datagram)
        samples) := by
  unfold getSamples
  generalize numberOfSamples / samplesPerPacket + 1 = asked at *
  have found {i : Nat} {payload : List UInt8}
      (place : ((packets.map HrzrPacket.bytes).take asked)[i]? = some payload) :
      i < min asked calls.length ∧ ∃ packet call, payload = packet.bytes ∧
        calls[i]? = some call ∧ Carries packet (numberAt start i) call.1 := by
    obtain ⟨bound, -⟩ := List.getElem?_eq_some_iff.mp place
    simp only [List.length_take, List.length_map, count] at bound
    rw [List.getElem?_take_of_lt (by omega), List.getElem?_map] at place
    obtain ⟨packet, here, rfl⟩ := Option.map_eq_some_iff.mp place
    obtain ⟨call, same, carries⟩ := carried i packet here
    exact ⟨bound, packet, call, rfl, same, carries⟩
  have passes : ∀ payload ∈ heard ((packets.map HrzrPacket.bytes).map .datagram) asked,
      Passes (.datagram payload) := by
    intro payload member
    rw [heard_datagrams] at member
    obtain ⟨i, place⟩ := List.mem_iff_getElem?.mp member
    obtain ⟨bound, packet, call, rfl, -, carries⟩ := found place
    exact (passes_iff carries).mpr (readable i bound)
  obtain ⟨placed, total, -⟩ := @receiveLoop_samples source.parser _ asked 0
    ⟨source.buf, samples, 0, none⟩ rfl passes
  rw [heard_datagrams] at placed total
  have length : ((packets.map HrzrPacket.bytes).take asked).length = min asked calls.length := by
    simp only [List.length_take, List.length_map, count]
  refine ⟨?_, ?_, ?_, ?_⟩
  · split
    · refine receiveLoop_returned rfl ?_ passes
      rw [heard_datagrams, length]
      omega
    · refine receiveLoop_waits rfl ?_ fun payload member => passes payload ?_
      · rw [List.length_map, count]
        omega
      · rw [heard_datagrams, List.take_of_length_le]
        · exact member
        · rw [List.length_map, count]
          omega
  · rw [total, Nat.zero_add, ← length]
    congr 1
    have selected := @filter_map_range _ Unit ((packets.map HrzrPacket.bytes).take asked) Decodes _
      (fun i => ReadAsData (numberAt start i)) _ (fun _ => ()) (fun _ => ()) ?_ fun _ _ _ _ => rfl
    · simpa using congrArg List.length selected
    · intro i payload place
      obtain ⟨-, packet, call, rfl, -, carries⟩ := found place
      exact decodes_iff carries
  · intro i bound call here data position within
    have inside : i < packets.length := by
      rw [count]
      exact (List.getElem?_eq_some_iff.mp here).1
    have place : ((packets.map HrzrPacket.bytes).take asked)[i]? = some packets[i].bytes := by
      rw [List.getElem?_take_of_lt bound, List.getElem?_map, List.getElem?_eq_getElem inside]
      rfl
    obtain ⟨other, same, carries⟩ := carried i packets[i] (List.getElem?_eq_getElem inside)
    cases Option.some.inj (here.symm.trans same)
    obtain ⟨block, column⟩ := cell_index i within
    rw [placed, foldl_place_data samples place ((decodes_iff carries).mpr data)
        (block.trans (Nat.zero_add i).symm),
      column, decoded_packet carries (Nat.mod_lt _ (by decide)) within]
  · intro index outside
    rw [placed]
    refine foldl_place_rest samples fun i payload place decodes block => ?_
    obtain ⟨bound, packet, call, rfl, -, carries⟩ := found place
    rw [Nat.zero_add] at block
    rw [block] at outside
    exact outside ⟨bound, (decodes_iff carries).mp decodes⟩

/-- Of the packets that are asked for and sent, an unreadable one makes the call throw;
if there is none, the blocks arrive. -/
theorem loopback (calls : List (List Int16 × SampleArray))
    (full : ∀ call ∈ calls, call.1.length = samplesPerPacket * 2)
    (transmitter : HrzrUdpTransmitter) (start : Nat)
    (counted : transmitter.currentSequenceNumber.toNat = start % 4096)
    (source : UdpSource) (numberOfSamples : Nat) (samples : SampleBuffer) :
    ∃ sent after, sendPackets transmitter calls = .ok (sent, after) ∧
      let packets := numberOfSamples / samplesPerPacket + 1
      let reception := source.getSamples numberOfSamples (sent.map .datagram) samples
      ((∃ thrown, reception.ending = some (.thrown thrown)) ↔
        ∃ i < min packets calls.length, Unreadable (numberAt start i)) ∧
      ((∀ i < min packets calls.length, ¬ Unreadable (numberAt start i)) →
        Arrives source.parser calls start packets samples reception) := by
  obtain ⟨packets, after, run, count, carried⟩ :=
    sendPackets_carry full transmitter start counted
  refine ⟨_, after, run, ?_, getSamples_carried count carried source numberOfSamples samples⟩
  constructor
  · rintro ⟨thrown, ending⟩
    by_contra none
    have arrives := getSamples_carried count carried source numberOfSamples samples
      fun i bound unreadable => none ⟨i, bound, unreadable⟩
    rw [arrives.ending] at ending
    split at ending <;> cases ending
  · rintro ⟨i, bound, unreadable⟩
    have inside : i < packets.length := by omega
    obtain ⟨call, -, carries⟩ := carried i packets[i] (List.getElem?_eq_getElem inside)
    refine receiveLoop_thrown _ _ 0 ⟨source.buf, samples, 0, none⟩ rfl packets[i].bytes ?_
      fun passes => (passes_iff carries).mp passes unreadable
    rw [heard_datagrams]
    refine List.mem_iff_getElem?.mpr ⟨i, ?_⟩
    rw [List.getElem?_take_of_lt (by omega), List.getElem?_map, List.getElem?_eq_getElem inside]
    rfl

/-- From a new transmitter the first 144 packets are readable, and the next one is not. -/
theorem unreadable_from_start (packets : Nat) :
    (∃ i < packets, Unreadable (numberAt 0 i)) ↔ 144 < packets := by
  constructor
  · rintro ⟨i, bound, unreadable⟩
    rw [Unreadable, numberAt] at unreadable
    omega
  · intro many
    exact ⟨144, many, .inl rfl⟩

def threeBlocks : List (List Int16 × SampleArray) :=
  List.replicate 3 (List.replicate (samplesPerPacket * 2) 5, Vector.replicate _ 0)

theorem three_blocks_arrive : ∃ sent after, sendPackets create threeBlocks = .ok (sent, after) ∧
    Arrives .unit threeBlocks 0 3 ⟨fun _ => ⟨0, 0⟩, []⟩
      (UdpSource.getSamples ⟨.unit, fun _ => 0⟩ 1000 (sent.map .datagram)
        ⟨fun _ => ⟨0, 0⟩, []⟩) := by
  have full : ∀ call ∈ threeBlocks, call.1.length = samplesPerPacket * 2 := by
    intro call member
    rw [List.eq_of_mem_replicate member, List.length_replicate]
  obtain ⟨sent, after, run, -, arrives⟩ := loopback threeBlocks full create 0 rfl
    ⟨.unit, fun _ => 0⟩ 1000 ⟨fun _ => ⟨0, 0⟩, []⟩
  refine ⟨sent, after, run, arrives fun i bound unreadable => ?_⟩
  have late := (unreadable_from_start _).mp ⟨i, bound, unreadable⟩
  exact absurd late (by decide)

end JerryDriver.Loopback
