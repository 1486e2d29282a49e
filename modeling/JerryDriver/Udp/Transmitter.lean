import JerryDriver.Hrzr.HeaderParser

/-! The HRZR transmitter. A packet object lives on the stack and its sample array is
not initialized, so the array's earlier contents are an input of every send. The
packed structure is laid out field by field in the host's little-endian order, and
the datagram is the prefix of it that the length field announces. -/
namespace JerryDriver
open ByteMemory Definitions HrzrHeaderParser

structure HrzrUdpTransmitter where
  currentSequenceNumber : UInt16

namespace HrzrUdpTransmitter

structure HrzrHeader where
  control : UInt8
  sequenceNumber : UInt16
  totalPacketLength : UInt16
  sourceId : UInt32

abbrev SampleArray := Vector Int16 (samplesPerPacket * 2)

structure HrzrPacket where
  ctrlAndSeqNb : UInt16
  totalPckLen : UInt16
  srcId : UInt32
  samples : SampleArray

def HrzrPacket.bytes (packet : HrzrPacket) : List UInt8 :=
  bytesOf 2 packet.ctrlAndSeqNb.toNat ++ bytesOf 2 packet.totalPckLen.toNat ++
    bytesOf 4 packet.srcId.toNat ++
    packet.samples.toList.flatMap fun sample => bytesOf 2 sample.toUInt16.toNat

def create : HrzrUdpTransmitter := ⟨0⟩

/-- The sum is an `int`, its assignment to the 16-bit field drops the rest. -/
def makeHrzrHeader (transmitter : HrzrUdpTransmitter) (numSamples : Nat) : HrzrHeader where
  control := 0
  sequenceNumber := transmitter.currentSequenceNumber
  totalPacketLength := UInt16.ofNat (8 + numSamples * sampleSizeInByte)
  sourceId := 0

/-- The copy runs over the whole vector, also where the array is shorter. -/
def makeHrzrPacket (header : HrzrHeader) (payload : List Int16) (stack : SampleArray) :
    Except MemoryFault HrzrPacket :=
  if payload.length ≤ samplesPerPacket * 2 then
    .ok { ctrlAndSeqNb := header.control.toUInt16 <<< 12 ||| header.sequenceNumber
          totalPckLen := header.totalPacketLength
          srcId := header.sourceId
          samples := Vector.ofFn fun i => payload.getD i stack[i] }
  else .error .writeOutsideArray

/-- `send` of as many bytes as the length field says, from the packet object. -/
def datagram (packet : HrzrPacket) : Except MemoryFault (List UInt8) :=
  if packet.totalPckLen.toNat ≤ packet.bytes.length then
    .ok (packet.bytes.take packet.totalPckLen.toNat)
  else .error .readOutsideObject

def nextSequenceNumber (counter : UInt16) : UInt16 :=
  let next := counter + 1
  if next = 4096 then 0 else next

def sendPacket (transmitter : HrzrUdpTransmitter) (samples : List Int16) (stack : SampleArray) :
    Except MemoryFault (List UInt8 × HrzrUdpTransmitter) := do
  let header := makeHrzrHeader transmitter (samples.length / 2)
  let packet ← makeHrzrPacket header samples stack
  let sent ← datagram packet
  return (sent, ⟨nextSequenceNumber transmitter.currentSequenceNumber⟩)

def sendPackets (transmitter : HrzrUdpTransmitter) :
    List (List Int16 × SampleArray) → Except MemoryFault (List (List UInt8) × HrzrUdpTransmitter)
  | [] => .ok ([], transmitter)
  | (samples, stack) :: rest => do
    let (sent, transmitter) ← sendPacket transmitter samples stack
    let (others, transmitter) ← sendPackets transmitter rest
    return (sent :: others, transmitter)

theorem length_bytes (packet : HrzrPacket) : packet.bytes.length = packetSize := by
  have samples : ∀ l : List Int16,
      (l.flatMap fun sample => bytesOf 2 sample.toUInt16.toNat).length = 2 * l.length := by
    intro l
    induction l with
    | nil => rfl
    | cons _ _ ih =>
      rw [List.flatMap_cons, List.length_append, ih, length_bytesOf, List.length_cons]
      omega
  simp only [HrzrPacket.bytes, List.length_append, length_bytesOf, samples, Vector.length_toList]
  rfl

/-- A vector that fits is copied into the packet, of which the announced bytes are sent. -/
theorem sendPacket_made (transmitter : HrzrUdpTransmitter) {samples : List Int16}
    (stack : SampleArray) (fits : samples.length ≤ samplesPerPacket * 2) :
    ∃ packet : HrzrPacket,
      makeHrzrPacket (makeHrzrHeader transmitter (samples.length / 2)) samples stack = .ok packet ∧
      packet.ctrlAndSeqNb = transmitter.currentSequenceNumber ∧
      packet.samples = Vector.ofFn (fun i => samples.getD i stack[i]) ∧
      sendPacket transmitter samples stack =
        .ok (packet.bytes.take (8 + samples.length / 2 * sampleSizeInByte),
          ⟨nextSequenceNumber transmitter.currentSequenceNumber⟩) := by
  have announced : (UInt16.ofNat (8 + samples.length / 2 * sampleSizeInByte)).toNat =
      8 + samples.length / 2 * sampleSizeInByte := by
    simp only [samplesPerPacket_eq, sampleSizeInByte] at fits ⊢
    rw [UInt16.toNat_ofNat', Nat.mod_eq_of_lt (by omega)]
  have within : 8 + samples.length / 2 * sampleSizeInByte ≤ packetSize := by
    simp only [samplesPerPacket_eq, sampleSizeInByte, packetSize] at fits ⊢
    omega
  have unshifted : (0 : UInt8).toUInt16 <<< 12 ||| transmitter.currentSequenceNumber =
      transmitter.currentSequenceNumber := by
    rw [show (0 : UInt8).toUInt16 <<< 12 = 0 by decide, UInt16.zero_or]
  have made : makeHrzrPacket (makeHrzrHeader transmitter (samples.length / 2)) samples stack =
      .ok ⟨(0 : UInt8).toUInt16 <<< 12 ||| transmitter.currentSequenceNumber,
        UInt16.ofNat (8 + samples.length / 2 * sampleSizeInByte), 0,
        Vector.ofFn fun i => samples.getD i stack[i]⟩ := if_pos fits
  refine ⟨_, made, unshifted, rfl, ?_⟩
  simp only [sendPacket, made, datagram, length_bytes, announced, if_pos within, bind,
    Except.bind, pure, Except.pure]

theorem sendPacket_ok (transmitter : HrzrUdpTransmitter) {samples : List Int16}
    (stack : SampleArray) (fits : samples.length ≤ samplesPerPacket * 2) :
    ∃ packet : HrzrPacket, packet.ctrlAndSeqNb = transmitter.currentSequenceNumber ∧
      sendPacket transmitter samples stack =
        .ok (packet.bytes.take (8 + samples.length / 2 * sampleSizeInByte),
          ⟨nextSequenceNumber transmitter.currentSequenceNumber⟩) := by
  obtain ⟨packet, made, numbered, copied, emitted⟩ := sendPacket_made transmitter stack fits
  exact ⟨packet, numbered, emitted⟩

/-- The header word of a sent packet begins with the counter in host byte order. -/
theorem header_low (packet : HrzrPacket) {length : Nat} (header : 8 ≤ length) :
    (load64 (ofBytes (packet.bytes.take length)) 0).toNat % 65536 =
      packet.ctrlAndSeqNb.toNat := by
  have bound := packet.ctrlAndSeqNb.toNat_lt
  obtain ⟨rest, length_eq⟩ := Nat.exists_eq_add_of_le header
  subst length_eq
  rw [load64_low, Nat.add_comm 8 rest]
  simp only [ofBytes, HrzrPacket.bytes, bytesOf, List.cons_append, List.nil_append,
    List.take_succ_cons, List.getD_cons_zero, List.getD_cons_succ, UInt8.toNat_ofNat']
  omega

def HeaderAgrees (i : Nat) (sent : List UInt8) : Prop :=
  getControlFromHeader (load64 (ofBytes sent) 0) = .ok .data ∧
    (getSequenceNumberFromHeader (load64 (ofBytes sent) 0)).toNat = i % 4096

/-- Of the three hexadecimal digits of a number the decoder takes the last one for
the first, the middle one for control and the first one for the last. -/
private theorem digits_survive_iff {number : Nat} (bound : number < 4096) :
    (number % 256 / 16 = 0 ∨ number % 256 / 16 = 2) ∧
      number % 16 * 256 + number / 256 = number ↔ 257 ∣ number := by
  constructor
  · rintro ⟨control, exchanged⟩
    have digits : number = number / 256 * 256 + number % 256 / 16 * 16 + number % 16 := by omega
    have same : number / 256 = number % 16 := by omega
    exact ⟨number % 16, by omega⟩
  · rintro ⟨digit, rfl⟩
    have high : 257 * digit / 256 = digit := by omega
    have low : 257 * digit % 256 = digit := by omega
    omega

/-- The receivers recover a number only when it repeats one digit around a zero. -/
theorem headerAgrees_iff {i : Nat} {sent : List UInt8}
    (low : (load64 (ofBytes sent) 0).toNat % 65536 = i % 4096) :
    HeaderAgrees i sent ↔ 257 ∣ i % 4096 := by
  rw [← digits_survive_iff (Nat.mod_lt i (by decide)), HeaderAgrees,
    getControlFromHeader_data_iff, getSequenceNumberFromHeader_toNat]
  generalize (load64 (ofBytes sent) 0).toNat = word at low
  have first : word % 256 = i % 4096 % 256 := by omega
  have nibble : word % 16 = i % 4096 % 16 := by omega
  have second : word / 256 % 256 = i % 4096 / 256 := by omega
  rw [first, nibble, second]

theorem next_counter {counter : UInt16} {i : Nat} (counted : counter.toNat = i % 4096) :
    (nextSequenceNumber counter).toNat = (i + 1) % 4096 := by
  have sum : (counter + 1).toNat = counter.toNat + 1 := by
    rw [UInt16.toNat_add, UInt16.toNat_one]
    omega
  have wraps : counter + 1 = 4096 ↔ counter.toNat + 1 = 4096 := by
    rw [← UInt16.toNat_inj, sum]
    rfl
  by_cases last : counter.toNat + 1 = 4096
  · rw [nextSequenceNumber, if_pos (wraps.mpr last), UInt16.toNat_zero]
    omega
  · rw [nextSequenceNumber, if_neg (fun same => last (wraps.mp same)), sum]
    omega

/-- A run of sends that fit emits one datagram per send, numbered from the counter. -/
theorem sendPackets_numbered {calls : List (List Int16 × SampleArray)}
    (fits : ∀ call ∈ calls, call.1.length ≤ samplesPerPacket * 2)
    (transmitter : HrzrUdpTransmitter) (start : Nat)
    (counted : transmitter.currentSequenceNumber.toNat = start % 4096) :
    ∃ sent after, sendPackets transmitter calls = .ok (sent, after) ∧
      sent.length = calls.length ∧ ∀ i datagram, sent[i]? = some datagram →
        (load64 (ofBytes datagram) 0).toNat % 65536 = (start + i) % 4096 := by
  induction calls generalizing transmitter start with
  | nil => exact ⟨[], transmitter, rfl, rfl, by simp⟩
  | cons call rest ih =>
    obtain ⟨samples, stack⟩ := call
    obtain ⟨packet, numbered, emitted⟩ := sendPacket_ok transmitter stack
      (fits (samples, stack) List.mem_cons_self)
    obtain ⟨others, after, run, count, following⟩ := ih
      (fun call member => fits call (List.mem_cons_of_mem _ member))
      ⟨nextSequenceNumber transmitter.currentSequenceNumber⟩ (start + 1) (next_counter counted)
    refine ⟨packet.bytes.take (8 + samples.length / 2 * sampleSizeInByte) :: others, after,
      ?_, by simp [count], ?_⟩
    · simp only [sendPackets, emitted, run, bind, Except.bind, pure, Except.pure]
    · intro i datagram found
      cases i with
      | zero =>
        cases Option.some.inj found
        rw [header_low packet (by omega), numbered, counted, Nat.add_zero]
      | succ i =>
        rw [following i datagram (by simpa using found), Nat.add_right_comm, Nat.add_assoc]

/-- Over any run of sends that fit, the receivers read a datagram's type and number
back exactly when its number is a multiple of 257. -/
theorem sendPackets_header_iff (calls : List (List Int16 × SampleArray))
    (fits : ∀ call ∈ calls, call.1.length ≤ samplesPerPacket * 2) :
    ∃ sent after, sendPackets create calls = .ok (sent, after) ∧ sent.length = calls.length ∧
      ∀ i datagram, sent[i]? = some datagram →
        (HeaderAgrees i datagram ↔ 257 ∣ i % 4096) := by
  obtain ⟨sent, after, run, count, numbered⟩ := sendPackets_numbered fits create 0 rfl
  refine ⟨sent, after, run, count, fun i datagram found => headerAgrees_iff ?_⟩
  rw [numbered i datagram found, Nat.zero_add]

theorem sendPackets_header_three :
    ∃ sent after, sendPackets create (List.replicate 3 ([5, -5], Vector.replicate _ 0)) =
        .ok (sent, after) ∧ sent.length = 3 ∧
      ∀ i datagram, sent[i]? = some datagram → (HeaderAgrees i datagram ↔ 257 ∣ i % 4096) :=
  sendPackets_header_iff (List.replicate 3 ([5, -5], Vector.replicate _ 0)) (by decide)

/-- Already the second datagram of a run is not read back: its number 1 is decoded
as 256. -/
theorem second_datagram_misread :
    ¬ ∀ sent after, sendPackets create (List.replicate 2 ([5, -5], Vector.replicate _ 0)) =
        .ok (sent, after) →
      ∀ i datagram, sent[i]? = some datagram → HeaderAgrees i datagram := by
  intro agrees
  obtain ⟨sent, after, run, count, numbered⟩ :=
    @sendPackets_numbered (List.replicate 2 ([5, -5], Vector.replicate _ 0)) (by decide)
      create 0 rfl
  have second : 1 < sent.length := by rw [count]; decide
  have found := List.getElem?_eq_getElem second
  have survives := (headerAgrees_iff (numbered 1 _ found)).mp (agrees sent after run 1 _ found)
  exact absurd survives (by decide)

end HrzrUdpTransmitter
end JerryDriver
