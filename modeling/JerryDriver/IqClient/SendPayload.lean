import JerryDriver.Hrzr.Parser
import JerryDriver.Udp.Transmitter
import Mathlib.Data.List.Forall2

/-! Sending samples. `SendPayload` converts every component to a 16-bit integer, I before
Q, and hands the vector to the transmitter. The conversion drops the fraction; it is not
defined for a component whose integer part has no 16 bits. -/
namespace JerryDriver.IqClient
open ByteMemory Definitions HrzrParser HrzrUdpTransmitter

inductive SendFault where
  | conversion (component : ℚ)
  | memory (fault : MemoryFault)

/-- A `float` assigned to an `int16_t`. -/
def toInt16 (component : ℚ) : Except SendFault Int16 :=
  let truncated := component.num.tdiv component.den
  if -32768 ≤ truncated ∧ truncated ≤ 32767 then .ok (Int16.ofInt truncated)
  else .error (.conversion component)

/-- The vector `smpl` of twice the number of samples. -/
def interleave : List Sample → Except SendFault (List Int16)
  | [] => .ok []
  | sample :: rest => do
    let real ← toInt16 sample.re
    let imag ← toInt16 sample.im
    let smpl ← interleave rest
    return real :: imag :: smpl

def sendPayload (transmitter : HrzrUdpTransmitter) (samples : List Sample) (stack : SampleArray) :
    Except SendFault (List UInt8 × HrzrUdpTransmitter) := do
  let smpl ← interleave samples
  (sendPacket transmitter smpl stack).mapError .memory

/-- A run of calls, each with what its packet finds on the stack. -/
def sendPayloads (transmitter : HrzrUdpTransmitter) : List (List Sample × SampleArray) →
    Except SendFault (List (List UInt8) × HrzrUdpTransmitter)
  | [] => .ok ([], transmitter)
  | (samples, stack) :: rest => do
    let (sent, transmitter) ← sendPayload transmitter samples stack
    let (others, transmitter) ← sendPayloads transmitter rest
    return (sent :: others, transmitter)

/-- The packet object of which `sendPayload` sends the announced bytes. -/
def payloadPacket (transmitter : HrzrUdpTransmitter) (samples : List Sample)
    (stack : SampleArray) : Except SendFault HrzrPacket := do
  let smpl ← interleave samples
  (makeHrzrPacket (makeHrzrHeader transmitter (smpl.length / 2)) smpl stack).mapError .memory

def Int16Valued (sample : Sample) : Prop :=
  ∃ real imag : Int16, sample = ⟨real.toInt, imag.toInt⟩

variable {transmitter : HrzrUdpTransmitter} {samples : List Sample} {smpl : List Int16}
  {stack : SampleArray} {packet : HrzrPacket}

/-- Both components lie between the least and the greatest 16-bit integer. -/
structure Int16Ranged (sample : Sample) : Prop where
  real : -32768 ≤ sample.re ∧ sample.re ≤ 32767
  imag : -32768 ≤ sample.im ∧ sample.im ≤ 32767

/-- What is left of a component without its fraction. -/
def integerPart (component : ℚ) : Int := component.num.tdiv component.den

theorem integerPart_bounds {component : ℚ} (range : -32768 ≤ component ∧ component ≤ 32767) :
    -32768 ≤ integerPart component ∧ integerPart component ≤ 32767 := by
  have positive : 0 < (component.den : Int) := Int.natCast_pos.mpr component.den_pos
  have lower : -32768 * (component.den : Int) ≤ component.num := by
    simpa using (Rat.le_iff _ _).mp range.1
  have upper : component.num ≤ 32767 * (component.den : Int) := by
    simpa using (Rat.le_iff _ _).mp range.2
  constructor
  · exact Int.le_tdiv_of_mul_le positive lower
  · have monotone := Int.tdiv_le_tdiv positive upper
    rwa [Int.mul_tdiv_cancel _ (Int.ne_of_gt positive)] at monotone

theorem toInt16_ranged {component : ℚ} (range : -32768 ≤ component ∧ component ≤ 32767) :
    ∃ word : Int16, toInt16 component = .ok word ∧ word.toInt = integerPart component := by
  have bounds := integerPart_bounds range
  refine ⟨Int16.ofInt (integerPart component), if_pos bounds, ?_⟩
  rw [Int16.toInt_ofInt_of_le] <;> simp <;> omega

theorem integerPart_toInt (word : Int16) : integerPart word.toInt = word.toInt := by
  rw [integerPart, Rat.num_intCast, Rat.den_intCast, Nat.cast_one, Int.tdiv_one]

theorem Int16Valued.ranged {sample : Sample} (valued : Int16Valued sample) :
    Int16Ranged sample := by
  obtain ⟨real, imag, rfl⟩ := valued
  have bounds (word : Int16) : -32768 ≤ (word.toInt : ℚ) ∧ (word.toInt : ℚ) ≤ 32767 := by
    have lower := word.le_toInt
    have upper : word.toInt ≤ 32767 := Int.le_of_lt_add_one word.toInt_lt
    exact ⟨by exact_mod_cast lower, by exact_mod_cast upper⟩
  exact ⟨bounds real, bounds imag⟩

theorem interleave_cons {sample : Sample} {rest : List Sample}
    (interleaved : interleave (sample :: rest) = .ok smpl) :
    ∃ real imag others, interleave rest = .ok others ∧ smpl = real :: imag :: others := by
  rw [interleave] at interleaved
  cases real : toInt16 sample.re with
  | error fault =>
    rw [real] at interleaved
    contradiction
  | ok re =>
    cases imag : toInt16 sample.im with
    | error fault =>
      rw [real, imag] at interleaved
      contradiction
    | ok im =>
      cases later : interleave rest with
      | error fault =>
        rw [real, imag, later] at interleaved
        contradiction
      | ok others =>
        rw [real, imag, later] at interleaved
        cases interleaved
        exact ⟨re, im, others, rfl, rfl⟩

theorem interleave_length (interleaved : interleave samples = .ok smpl) :
    smpl.length = samples.length * 2 := by
  induction samples generalizing smpl with
  | nil =>
    cases interleaved
    rfl
  | cons sample rest ih =>
    obtain ⟨real, imag, others, later, rfl⟩ := interleave_cons interleaved
    rw [List.length_cons, List.length_cons, ih later, List.length_cons]
    omega

/-- Samples in the 16-bit range are converted, each to the words at twice its position. -/
theorem interleave_ranged (ranged : ∀ sample ∈ samples, Int16Ranged sample) :
    ∃ smpl, interleave samples = .ok smpl ∧ ∀ i (bound : i < samples.length),
      (smpl.getD (i * 2) 0).toInt = integerPart samples[i].re ∧
        (smpl.getD (i * 2 + 1) 0).toInt = integerPart samples[i].im := by
  induction samples with
  | nil => exact ⟨[], rfl, fun i bound => absurd bound (Nat.not_lt_zero i)⟩
  | cons sample rest ih =>
    obtain ⟨inRange, imagRange⟩ := ranged sample List.mem_cons_self
    obtain ⟨real, converted, realPart⟩ := toInt16_ranged inRange
    obtain ⟨imag, imagConverted, imagPart⟩ := toInt16_ranged imagRange
    obtain ⟨smpl, later, places⟩ :=
      ih fun other member => ranged other (List.mem_cons_of_mem _ member)
    refine ⟨real :: imag :: smpl, ?_, ?_⟩
    · simp only [interleave, converted, imagConverted, later, bind, Except.bind, pure, Except.pure]
    · intro i bound
      cases i with
      | zero => exact ⟨realPart, imagPart⟩
      | succ i =>
        have place : (i + 1) * 2 = i * 2 + 1 + 1 := by omega
        rw [place]
        exact places i (Nat.lt_of_succ_lt_succ bound)

/-- Samples of 16-bit integers survive the conversion. -/
theorem interleave_ok (valued : ∀ sample ∈ samples, Int16Valued sample) :
    ∃ smpl, interleave samples = .ok smpl ∧ ∀ i (bound : i < samples.length),
      samples[i] = ⟨(smpl.getD (i * 2) 0).toInt, (smpl.getD (i * 2 + 1) 0).toInt⟩ := by
  obtain ⟨smpl, interleaved, places⟩ :=
    interleave_ranged fun sample member => (valued sample member).ranged
  refine ⟨smpl, interleaved, fun i bound => ?_⟩
  obtain ⟨real, imag, sample⟩ := valued samples[i] (List.getElem_mem bound)
  obtain ⟨realPart, imagPart⟩ := places i bound
  rw [realPart, imagPart, sample, integerPart_toInt, integerPart_toInt]

/-- The words behind the header of a packet are its samples. -/
theorem payloadAt_packet {position : Nat} (bound : position < samplesPerPacket * 2) :
    payloadAt (ofBytes packet.bytes) 8 position = packet.samples[position] := by
  let front := bytesOf 2 packet.ctrlAndSeqNb.toNat ++ bytesOf 2 packet.totalPckLen.toNat ++
    bytesOf 4 packet.srcId.toNat
  have layout : packet.bytes = front ++
      (packet.samples.toList.map Int16.toUInt16).flatMap fun word => bytesOf 2 word.toNat := by
    rw [List.flatMap_map]
    rfl
  have eight : 8 = front.length := rfl
  have inside : position < (packet.samples.toList.map Int16.toUInt16).length := by
    rwa [List.length_map, Vector.length_toList]
  rw [payloadAt, layout, eight, load16_append, load16_words _ inside, List.getElem_map,
    Vector.getElem_toList]
  simp

/-- A call whose samples can be converted and fit sends the packet's announced bytes. -/
theorem sendPayload_ok (transmitter : HrzrUdpTransmitter) (stack : SampleArray)
    (interleaved : interleave samples = .ok smpl) (fits : samples.length ≤ samplesPerPacket) :
    ∃ packet, payloadPacket transmitter samples stack = .ok packet ∧
      packet.ctrlAndSeqNb = transmitter.currentSequenceNumber ∧
      packet.samples = Vector.ofFn (fun i => smpl.getD i stack[i]) ∧
      sendPayload transmitter samples stack =
        .ok (packet.bytes.take (8 + samples.length * sampleSizeInByte),
          ⟨nextSequenceNumber transmitter.currentSequenceNumber⟩) := by
  have length : smpl.length = samples.length * 2 := interleave_length interleaved
  have half : smpl.length / 2 = samples.length := by omega
  obtain ⟨packet, made, numbered, copied, emitted⟩ :=
    @sendPacket_made transmitter smpl stack (by omega)
  rw [half] at made emitted
  refine ⟨packet, ?_, numbered, copied, ?_⟩
  · simp only [payloadPacket, interleaved, half, made, bind, Except.bind, Except.mapError]
  · simp only [sendPayload, interleaved, emitted, bind, Except.bind, Except.mapError]

/-- A call that sends anything sends as many bytes as its packet announces. -/
theorem sendPayload_length {sent : List UInt8} {after : HrzrUdpTransmitter}
    (fits : samples.length ≤ samplesPerPacket)
    (emitted : sendPayload transmitter samples stack = .ok (sent, after)) :
    sent.length = 8 + samples.length * sampleSizeInByte := by
  cases interleaved : interleave samples with
  | error fault =>
    rw [sendPayload, interleaved] at emitted
    contradiction
  | ok smpl =>
    obtain ⟨packet, made, numbered, copied, announced⟩ :=
      sendPayload_ok transmitter stack interleaved fits
    rw [announced] at emitted
    cases emitted
    rw [List.length_take, length_bytes, Nat.min_eq_left]
    simp only [samplesPerPacket_eq, sampleSizeInByte, packetSize] at fits ⊢
    omega

theorem sendPayloads_lengths {calls : List (List Sample × SampleArray)}
    {sent : List (List UInt8)} {after : HrzrUdpTransmitter}
    (fits : ∀ call ∈ calls, call.1.length ≤ samplesPerPacket)
    (run : sendPayloads transmitter calls = .ok (sent, after)) :
    List.Forall₂ (fun call datagram => datagram.length = 8 + call.1.length * sampleSizeInByte)
      calls sent := by
  induction calls generalizing transmitter sent with
  | nil =>
    cases run
    exact .nil
  | cons call rest ih =>
    obtain ⟨samples, stack⟩ := call
    rw [sendPayloads] at run
    cases first : sendPayload transmitter samples stack with
    | error fault =>
      rw [first] at run
      contradiction
    | ok emitted =>
      cases later : sendPayloads emitted.2 rest with
      | error fault =>
        simp only [first, later, bind, Except.bind] at run
        contradiction
      | ok others =>
        simp only [first, later, bind, Except.bind, pure, Except.pure] at run
        cases run
        exact .cons (sendPayload_length (fits (samples, stack) List.mem_cons_self) first)
          (ih (fun call member => fits call (List.mem_cons_of_mem _ member)) later)

/-- What the decoder makes of the payload of a packet that `sendPayload` builds: the
samples sent, divided by the norm, from the packet's first position on. -/
theorem payload_round_trip (transmitter : HrzrUdpTransmitter) (samples : List Sample)
    (stack : SampleArray) (fits : samples.length ≤ samplesPerPacket)
    (valued : ∀ sample ∈ samples, Int16Valued sample) :
    ∃ packet, payloadPacket transmitter samples stack = .ok packet ∧
      sendPayload transmitter samples stack =
        .ok (packet.bytes.take (8 + samples.length * sampleSizeInByte),
          ⟨nextSequenceNumber transmitter.currentSequenceNumber⟩) ∧
      ∀ (parser : HrzrParser) (packetIdx : Nat) (before : SampleBuffer),
        let after := (parsePayloadSamples parser packetIdx
          (payloadAt (ofBytes packet.bytes) 8) before).2
        (∀ i (bound : i < samples.length), after.cells (packetIdx * samplesPerPacket + i) =
          ⟨samples[i].re / parser.norm, samples[i].im / parser.norm⟩) ∧
        ∀ index, ¬ (packetIdx * samplesPerPacket ≤ index ∧
            index < packetIdx * samplesPerPacket + samplesPerPacket) →
          after.cells index = before.cells index := by
  obtain ⟨smpl, interleaved, places⟩ := interleave_ok valued
  have length : smpl.length = samples.length * 2 := interleave_length interleaved
  obtain ⟨packet, made, numbered, copied, emitted⟩ :=
    sendPayload_ok transmitter stack interleaved fits
  refine ⟨packet, made, emitted, fun parser packetIdx before => ⟨?_, ?_⟩⟩
  · intro i bound
    have word {position : Nat} (inside : position < smpl.length) :
        payloadAt (ofBytes packet.bytes) 8 position = smpl.getD position 0 := by
      have room : position < samplesPerPacket * 2 := by omega
      rw [payloadAt_packet room, getElem_congr_coll copied, Vector.getElem_ofFn,
        List.getD_eq_getElem _ _ inside, List.getD_eq_getElem _ _ inside]
    obtain ⟨here, position⟩ := cell_index packetIdx (Nat.lt_of_lt_of_le bound fits)
    rw [parsePayloadSamples_cells, here, if_pos rfl, position, decoded, places i bound,
      word (by omega), word (by omega)]
  · intro index outside
    rw [block_iff] at outside
    rw [parsePayloadSamples_cells, if_neg outside]

theorem payload_round_trip_three :
    ∃ packet, payloadPacket ⟨4095⟩ [⟨5, -7⟩, ⟨-32768, 32767⟩, ⟨0, 1⟩] (Vector.replicate _ 1) =
        .ok packet ∧
      ∀ (parser : HrzrParser) (packetIdx : Nat) (before : SampleBuffer),
        let cells := (parsePayloadSamples parser packetIdx
          (payloadAt (ofBytes packet.bytes) 8) before).2.cells
        cells (packetIdx * samplesPerPacket + 0) = ⟨5 / parser.norm, -7 / parser.norm⟩ ∧
        cells (packetIdx * samplesPerPacket + 1) = ⟨-32768 / parser.norm, 32767 / parser.norm⟩ ∧
        cells (packetIdx * samplesPerPacket + 2) = ⟨0 / parser.norm, 1 / parser.norm⟩ := by
  have valued : ∀ sample ∈ ([⟨5, -7⟩, ⟨-32768, 32767⟩, ⟨0, 1⟩] : List Sample),
      Int16Valued sample := by
    intro sample member
    simp only [List.mem_cons, List.not_mem_nil, or_false] at member
    rcases member with rfl | rfl | rfl
    · exact ⟨5, -7, rfl⟩
    · exact ⟨-32768, 32767, rfl⟩
    · exact ⟨0, 1, rfl⟩
  obtain ⟨packet, made, emitted, decodes⟩ := payload_round_trip ⟨4095⟩
    [⟨5, -7⟩, ⟨-32768, 32767⟩, ⟨0, 1⟩] (Vector.replicate _ 1) (by decide) valued
  refine ⟨packet, made, fun parser packetIdx before => ?_⟩
  have places := (decodes parser packetIdx before).1
  exact ⟨places 0 (by decide), places 1 (by decide), places 2 (by decide)⟩

end JerryDriver.IqClient
