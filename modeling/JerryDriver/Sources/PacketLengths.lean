import JerryDriver.Dpdk.Source
import JerryDriver.IqClient.SendPayload
import JerryDriver.Udp.Receptions

/-! The lengths of packets at both ends. The transmitter announces and sends as many
samples as it is given; both receivers compare a packet's length with that of a full one
before they decode it, and count 366 samples for what passes. -/
namespace JerryDriver
open ByteMemory Definitions HrzrHeaderParser IqClient

/-- The datagram arrives as long as it was sent and with its payload, and its header,
however it got there, is recognised as DATA. -/
structure Delivered (sent received : List UInt8) : Prop where
  length : received.length = sent.length
  payload : ∀ i ≥ 8, received.getD i 0 = sent.getD i 0
  data : getControlFromHeader (UdpSource.headerOf received) = .ok .data

abbrev SendCall := List Sample × HrzrUdpTransmitter.SampleArray

def sentSamples (calls : List SendCall) : Nat := (calls.map (·.1.length)).sum

def fullCalls (calls : List SendCall) : Nat :=
  (calls.filter (·.1.length = samplesPerPacket)).length

namespace UdpSource

/-- What calls of `getSamples` count, each receiving what those before it have left. -/
def countSamples (source : UdpSource) : List (Nat × SampleBuffer) → List Received → Nat
  | [], _ => 0
  | (numberOfSamples, samples) :: rest, received =>
    let reception := source.getSamples numberOfSamples received samples
    reception.totalSamplesReceived + countSamples ⟨source.parser, reception.buf⟩ rest
      (received.drop (numberOfSamples / samplesPerPacket + 1))

/-- The datagrams that the calls wait for. -/
def awaited (requests : List (Nat × SampleBuffer)) : Nat :=
  (requests.map (·.1 / samplesPerPacket + 1)).sum

/-- Calls that let every datagram pass count a block for each one that is decoded. -/
theorem countSamples_eq (source : UdpSource) (requests : List (Nat × SampleBuffer))
    {payloads : List (List UInt8)} (passes : ∀ payload ∈ payloads, Passes (.datagram payload)) :
    source.countSamples requests (payloads.map .datagram) =
      ((payloads.take (awaited requests)).filter (Decodes ·)).length * samplesPerPacket := by
  induction requests generalizing source payloads with
  | nil => simp [countSamples, awaited]
  | cons request rest ih =>
    obtain ⟨numberOfSamples, samples⟩ := request
    have total := (@receiveLoop_samples source.parser (payloads.map .datagram)
      (numberOfSamples / samplesPerPacket + 1) 0 ⟨source.buf, samples, 0, none⟩ rfl
      (by
        rw [heard_datagrams]
        exact fun payload member => passes payload (List.mem_of_mem_take member))).2.1
    rw [heard_datagrams, Nat.zero_add] at total
    have awaits : awaited ((numberOfSamples, samples) :: rest) =
        numberOfSamples / samplesPerPacket + 1 + awaited rest := List.sum_cons
    rw [countSamples, ← List.map_drop, ih _ fun payload member =>
      passes payload (List.mem_of_mem_drop member), awaits, List.take_add, List.filter_append,
      List.length_append, Nat.add_mul]
    exact congrArg (· + _) total

end UdpSource

/-- What the DPDK path counts: the decoding of the frames that `RXThread` accepts. -/
def DpdkSource.countSamples (parser : HrzrParser) (udpRxPort : UInt16) (frames : List Mbuf)
    (samples : SampleBuffer) : Nat :=
  (getSamples parser (frames.filter (Accepted udpRxPort ·)) samples).totalSamplesReceived

variable {calls : List SendCall} {sent received : List (List UInt8)} {frames : List Mbuf}
  {udpRxPort : UInt16}

/-- What is known of a call's datagram when it has arrived. -/
structure Arrives (call : SendCall) (payload : List UInt8) : Prop where
  fits : call.1.length ≤ samplesPerPacket
  length : payload.length = 8 + call.1.length * sampleSizeInByte
  data : getControlFromHeader (UdpSource.headerOf payload) = .ok .data

theorem arrives_all (fits : ∀ call ∈ calls, call.1.length ≤ samplesPerPacket)
    (lengths : List.Forall₂ (fun call datagram =>
      datagram.length = 8 + call.1.length * sampleSizeInByte) calls sent)
    (delivered : List.Forall₂ Delivered sent received) : List.Forall₂ Arrives calls received := by
  induction lengths generalizing received with
  | nil =>
    cases delivered
    exact .nil
  | @cons call datagram calls sent length lengths ih =>
    cases delivered with
    | cons first rest =>
      exact .cons ⟨fits call List.mem_cons_self, first.length.trans length, first.data⟩
        (ih (fun call member => fits call (List.mem_cons_of_mem _ member)) rest)

variable {call : SendCall} {payload : List UInt8} {m : Mbuf}

theorem Arrives.full_iff (arrives : Arrives call payload) :
    payload.length = packetSize ↔ call.1.length = samplesPerPacket := by
  rw [arrives.length, samplesPerPacket_eq, packetSize, sampleSizeInByte]
  omega

theorem Arrives.decodes_iff (arrives : Arrives call payload) :
    UdpSource.Decodes payload ↔ call.1.length = samplesPerPacket := by
  have fits := arrives.fits
  have length := arrives.length
  rw [← arrives.full_iff, UdpSource.Decodes, arrives.data]
  rw [samplesPerPacket_eq] at fits
  rw [sampleSizeInByte] at length
  rw [packetSize]
  constructor
  · intro decodes
    omega
  · intro full
    exact ⟨by omega, rfl⟩

theorem Arrives.accepted_iff (arrives : Arrives call payload)
    (carried : Carries m udpRxPort payload) :
    Accepted udpRxPort m ↔ call.1.length = samplesPerPacket := by
  have length := arrives.length
  have header : m.headers.hrzr = UdpSource.headerOf payload := by
    apply load64_congr
    intro i inside
    have bound : i < payload.length := by omega
    rw [carried.bytes i bound, Nat.zero_add, ofBytes, List.getD_eq_getElem _ _ bound]
  rw [carried.accepted_iff, header, arrives.data, arrives.full_iff]
  simp only [true_or, and_true]

theorem arrives_passes (arrives : List.Forall₂ Arrives calls received) :
    ∀ payload ∈ received, UdpSource.Passes (.datagram payload) := by
  induction arrives with
  | nil => exact fun _ member => absurd member List.not_mem_nil
  | cons first rest ih =>
    intro payload member
    rcases List.mem_cons.mp member with rfl | later
    · exact fun _ => ⟨.data, first.data⟩
    · exact ih payload later

theorem arrives_framed (arrives : List.Forall₂ Arrives calls received)
    (carried : List.Forall₂ (Carries · udpRxPort ·) frames received) :
    List.Forall₂ (fun call m => ∃ payload, Arrives call payload ∧ Carries m udpRxPort payload)
      calls frames := by
  induction arrives generalizing frames with
  | nil =>
    cases carried
    exact .nil
  | cons first rest ih =>
    cases carried with
    | cons frame others => exact .cons ⟨_, first, frame⟩ (ih others)

/-- Full packets never make up more than all, and all only if every packet is full. -/
theorem fullCalls_le (fits : ∀ call ∈ calls, 1 ≤ call.1.length ∧ call.1.length ≤ samplesPerPacket) :
    fullCalls calls * samplesPerPacket ≤ sentSamples calls ∧
      (fullCalls calls * samplesPerPacket = sentSamples calls ↔
        ∀ call ∈ calls, call.1.length = samplesPerPacket) := by
  induction calls with
  | nil => simp [fullCalls, sentSamples]
  | cons call rest ih =>
    obtain ⟨some_, short⟩ := fits call List.mem_cons_self
    obtain ⟨at_most, equal⟩ := ih fun other member => fits other (List.mem_cons_of_mem _ member)
    have sent : sentSamples (call :: rest) = call.1.length + sentSamples rest := List.sum_cons
    rw [List.forall_mem_cons, ← equal, sent]
    by_cases full : call.1.length = samplesPerPacket
    · have counted : fullCalls (call :: rest) = fullCalls rest + 1 := by
        rw [fullCalls, List.filter_cons_of_pos (by simpa using full), List.length_cons, fullCalls]
      rw [counted, Nat.succ_mul, full]
      omega
    · have counted : fullCalls (call :: rest) = fullCalls rest := by
        rw [fullCalls, List.filter_cons_of_neg (by simpa using full), fullCalls]
      rw [counted]
      omega

/-- Both receivers count the full packets of a run and discard every shorter one for its
length. They never count more than was sent, and count all of it if all packets are full. -/
theorem full_packets_counted {transmitter after : HrzrUdpTransmitter}
    (fits : ∀ call ∈ calls, 1 ≤ call.1.length ∧ call.1.length ≤ samplesPerPacket)
    (run : sendPayloads transmitter calls = .ok (sent, after))
    (delivered : List.Forall₂ Delivered sent received) :
    (∀ (source : UdpSource) (requests : List (Nat × SampleBuffer)),
      received.length ≤ UdpSource.awaited requests →
      source.countSamples requests (received.map .datagram) =
        fullCalls calls * samplesPerPacket) ∧
    (∀ (parser : HrzrParser) (udpRxPort : UInt16) (frames : List Mbuf) (samples : SampleBuffer),
      List.Forall₂ (Carries · udpRxPort ·) frames received →
      DpdkSource.countSamples parser udpRxPort frames samples =
        fullCalls calls * samplesPerPacket) ∧
    fullCalls calls * samplesPerPacket ≤ sentSamples calls ∧
    (fullCalls calls * samplesPerPacket = sentSamples calls ↔
      ∀ call ∈ calls, call.1.length = samplesPerPacket) := by
  have short : ∀ call ∈ calls, call.1.length ≤ samplesPerPacket :=
    fun call member => (fits call member).2
  have arrives : List.Forall₂ Arrives calls received :=
    arrives_all short (sendPayloads_lengths short run) delivered
  refine ⟨fun source requests awaited => ?_, fun parser udpRxPort frames samples carried => ?_,
    fullCalls_le fits⟩
  · have decoded : List.Forall₂ Arrives (calls.filter (·.1.length = samplesPerPacket))
        (received.filter (UdpSource.Decodes ·)) :=
      List.rel_filter (fun call payload arrived => by simpa using arrived.decodes_iff.symm) arrives
    rw [source.countSamples_eq requests (arrives_passes arrives), List.take_of_length_le awaited,
      ← decoded.length_eq, fullCalls]
  · have accepted := List.rel_filter (p := fun call : SendCall => call.1.length = samplesPerPacket)
      (q := (Accepted udpRxPort ·))
      (fun call m framed => by
        obtain ⟨payload, arrived, carries⟩ := framed
        simpa using (arrived.accepted_iff carries).symm) (arrives_framed arrives carried)
    rw [DpdkSource.countSamples, DpdkSource.getSamples_total, ← accepted.length_eq, fullCalls]

/-- Samples of 16-bit integers are sent, and the datagram is delivered as it is as long as
the counter leaves the control bits of its header alone. -/
theorem sendPayload_delivered (transmitter : HrzrUdpTransmitter) {samples : List Sample}
    (stack : HrzrUdpTransmitter.SampleArray) (fits : samples.length ≤ samplesPerPacket)
    (valued : ∀ sample ∈ samples, Int16Valued sample)
    (early : transmitter.currentSequenceNumber.toNat < 16) :
    ∃ datagram, sendPayload transmitter samples stack =
        .ok (datagram, ⟨HrzrUdpTransmitter.nextSequenceNumber transmitter.currentSequenceNumber⟩) ∧
      Delivered datagram datagram := by
  obtain ⟨smpl, interleaved, -⟩ := interleave_ok valued
  obtain ⟨packet, -, numbered, -, emitted⟩ := sendPayload_ok transmitter stack interleaved fits
  refine ⟨_, emitted, rfl, fun _ _ => rfl, ?_⟩
  have low := HrzrUdpTransmitter.header_low packet
    (Nat.le_add_right 8 (samples.length * sampleSizeInByte))
  rw [numbered] at low
  rw [getControlFromHeader_data_iff, UdpSource.headerOf]
  omega

theorem sendPayloads_delivered (transmitter : HrzrUdpTransmitter)
    (fits : ∀ call ∈ calls, call.1.length ≤ samplesPerPacket)
    (valued : ∀ call ∈ calls, ∀ sample ∈ call.1, Int16Valued sample)
    (early : transmitter.currentSequenceNumber.toNat + calls.length ≤ 16) :
    ∃ sent after, sendPayloads transmitter calls = .ok (sent, after) ∧
      List.Forall₂ Delivered sent sent := by
  induction calls generalizing transmitter with
  | nil => exact ⟨[], transmitter, rfl, .nil⟩
  | cons call rest ih =>
    rw [List.length_cons] at early
    obtain ⟨datagram, emitted, delivered⟩ := sendPayload_delivered transmitter call.2
      (fits call List.mem_cons_self) (valued call List.mem_cons_self) (by omega)
    have counted : transmitter.currentSequenceNumber.toNat =
        transmitter.currentSequenceNumber.toNat % 4096 := (Nat.mod_eq_of_lt (by omega)).symm
    have next := HrzrUdpTransmitter.next_counter counted
    obtain ⟨sent, after, run, others⟩ := ih
      ⟨HrzrUdpTransmitter.nextSequenceNumber transmitter.currentSequenceNumber⟩
      (fun other member => fits other (List.mem_cons_of_mem _ member))
      (fun other member => valued other (List.mem_cons_of_mem _ member)) (by
        change (HrzrUdpTransmitter.nextSequenceNumber _).toNat + _ ≤ _
        omega)
    refine ⟨datagram :: sent, after, ?_, .cons delivered others⟩
    simp only [sendPayloads, emitted, run, bind, Except.bind, pure, Except.pure]

/-- A short packet between two full ones. -/
def mixedCalls : List SendCall :=
  [(List.replicate samplesPerPacket ⟨5, -7⟩, Vector.replicate _ 1),
    ([⟨1, 2⟩], Vector.replicate _ 1),
    (List.replicate samplesPerPacket ⟨-3, 4⟩, Vector.replicate _ 1)]

theorem mixed_run_counted : ∃ sent after, sendPayloads .create mixedCalls = .ok (sent, after) ∧
    (∀ (source : UdpSource) (samples : SampleBuffer),
      source.countSamples [(1000, samples)] (sent.map .datagram) = 732) ∧
    (∀ (parser : HrzrParser) (samples : SampleBuffer),
      DpdkSource.countSamples parser 5000 (sent.map (Mbuf.ofUdp 5000)) samples = 732) ∧
    sentSamples mixedCalls = 733 := by
  have fits : ∀ call ∈ mixedCalls, 1 ≤ call.1.length ∧ call.1.length ≤ samplesPerPacket := by
    have some_ : 1 ≤ samplesPerPacket := samplesPerPacket_pos
    simp [mixedCalls, some_]
  have valued : ∀ call ∈ mixedCalls, ∀ sample ∈ call.1, Int16Valued sample := by
    intro call member sample inside
    simp only [mixedCalls, List.mem_cons, List.not_mem_nil, or_false] at member
    rcases member with rfl | rfl | rfl
    · exact ⟨5, -7, List.eq_of_mem_replicate inside⟩
    · exact ⟨1, 2, List.mem_singleton.mp inside⟩
    · exact ⟨-3, 4, List.eq_of_mem_replicate inside⟩
  obtain ⟨sent, after, run, delivered⟩ :=
    sendPayloads_delivered .create (fun call member => (fits call member).2) valued (by decide)
  obtain ⟨udp, dpdk, -⟩ := full_packets_counted fits run delivered
  have full : fullCalls mixedCalls * samplesPerPacket = 732 := by
    have short : 1 ≠ samplesPerPacket := by decide
    have two : fullCalls mixedCalls = 2 := by simp [fullCalls, mixedCalls, short]
    rw [two, samplesPerPacket_eq]
  rw [full] at udp dpdk
  have carried : List.Forall₂ (Carries · 5000 ·) (sent.map (Mbuf.ofUdp 5000)) sent :=
    List.forall₂_map_left_iff.mpr
      (List.forall₂_same.mpr fun payload _ => Mbuf.carries_ofUdp 5000 payload)
  refine ⟨sent, after, run, fun source samples => udp source [(1000, samples)] ?_,
    fun parser samples => dpdk parser 5000 _ samples carried, ?_⟩
  · have awaits : UdpSource.awaited [(1000, samples)] = 3 := by
      simp only [UdpSource.awaited, samplesPerPacket_eq, List.map_cons, List.map_nil, List.sum_cons,
        List.sum_nil, Nat.reduceDiv, Nat.reduceAdd]
    rw [awaits, ← (sendPayloads_lengths (fun call member => (fits call member).2) run).length_eq]
    decide
  · simp only [sentSamples, mixedCalls, List.map_cons, List.map_nil, List.length_replicate,
      List.length_singleton, List.sum_cons, List.sum_nil, samplesPerPacket_eq]
    omega

/-- A packet of one sample is delivered, and no call counts it. -/
theorem single_sample_not_counted :
    ∃ sent after, sendPayloads .create [([⟨5, -7⟩], Vector.replicate _ 1)] = .ok (sent, after) ∧
      List.Forall₂ Delivered sent sent ∧
      ∀ (source : UdpSource) (samples : SampleBuffer),
        source.countSamples [(0, samples)] (sent.map .datagram) ≠
          sentSamples [([⟨5, -7⟩], Vector.replicate _ 1)] := by
  have valued : ∀ call ∈ ([([⟨5, -7⟩], Vector.replicate _ 1)] : List SendCall),
      ∀ sample ∈ call.1, Int16Valued sample := by
    intro call member sample inside
    rw [List.mem_singleton.mp member] at inside
    exact ⟨5, -7, List.mem_singleton.mp inside⟩
  obtain ⟨sent, after, run, delivered⟩ :=
    sendPayloads_delivered .create (by decide) valued (by decide)
  refine ⟨sent, after, run, delivered, fun source samples => ?_⟩
  have short : ∀ datagram ∈ sent, ¬ packetSize ≤ datagram.length := by
    cases sendPayloads_lengths (by decide) run with
    | cons length others =>
      cases others
      intro datagram member
      rw [List.mem_singleton.mp member, length]
      decide
  have refused : (sent.take 1).filter (UdpSource.Decodes ·) = [] := by
    refine List.filter_eq_nil_iff.mpr fun datagram member => ?_
    have length := short datagram (List.mem_of_mem_take member)
    simpa using fun decodes : UdpSource.Decodes datagram => length decodes.1
  have awaits : UdpSource.awaited [(0, samples)] = 1 := by simp [UdpSource.awaited]
  rw [source.countSamples_eq _ fun datagram member full => absurd full (short datagram member),
    awaits, refused]
  decide

end JerryDriver
