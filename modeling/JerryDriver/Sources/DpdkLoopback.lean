import JerryDriver.Dpdk.Source
import JerryDriver.Sources.Agreement
import JerryDriver.Sources.Loopback
import JerryDriver.Sources.UnknownControl

/-! The transmitter heard by a receive thread. The samples behind the header come through
as they were sent. The number is read with its digits exchanged, so that consecutive
packets look like losses, and after 208 packets at the latest one has a control field that
ends the process. -/
namespace JerryDriver.DpdkLoopback
open ByteMemory Definitions HrzrHeaderParser HrzrPacketAllHeaders HrzrParser HrzrUdpTransmitter
open Tracking
open Loopback (Unreadable numberAt sendPackets_carry)

/-- The datagrams of these numbers are taken for data or the end of a burst. -/
def Kept (number : Nat) : Prop := number % 256 / 16 < 4

instance : DecidablePred Kept := fun _ => inferInstanceAs (Decidable (_ < _))

/-- Of the three hexadecimal digits the last comes first, and the middle one is missing. -/
def misread (number : Nat) : Nat := number % 16 * 256 + number / 256

/-- What the thread reports at the packet after the one with this number. -/
def stepReport (number : Nat) : Option (Nat × Nat × Int) :=
  if number % 16 ≠ 15 then some (256, 256, 256)
  else if number < 255 ∨ number = 4095 then none
  else if number % 256 = 255 then some (3839, 3839, 256)
  else some (3840, 3840, 255)

theorem amountsBetween_misread {number : Nat} (bound : number < 4096) :
    amountsBetween (misread number) (misread ((number + 1) % 4096)) = stepReport number := by
  unfold stepReport
  by_cases inside : number % 16 ≠ 15
  · have next : misread ((number + 1) % 4096) = misread number + 256 := by
      unfold misread
      omega
    have below : misread number ≠ 4095 := by
      unfold misread
      omega
    rw [if_pos inside, next, amountsBetween_upwards (by omega) below, Nat.add_sub_cancel_left]
    rfl
  · rw [if_neg inside]
    by_cases exempt : number < 255 ∨ number = 4095
    · rw [if_pos exempt, amountsBetween, if_neg]
      unfold Jumps misread
      omega
    · have earlier : misread ((number + 1) % 4096) < misread number := by
        unfold misread
        omega
      have inner : misread number ≠ 4095 ∧ misread ((number + 1) % 4096) ≠ 0 := by
        unfold misread
        omega
      rw [if_neg exempt, amountsBetween_downwards earlier inner.1 inner.2]
      split
      · have distance : misread number - misread ((number + 1) % 4096) = 3839 ∧
            (misread ((number + 1) % 4096) : Int) + (4095 - misread number) = 256 := by
          unfold misread
          omega
        rw [distance.1, distance.2]
      · have distance : misread number - misread ((number + 1) % 4096) = 3840 ∧
            (misread ((number + 1) % 4096) : Int) + (4095 - misread number) = 255 := by
          unfold misread
          omega
        rw [distance.1, distance.2]

/-! ## A frame that carries a packet -/

section Frame

variable {m : Mbuf} {udpRxPort : UInt16} {packet : HrzrPacket} {number : Nat} {words : List Int16}
  {parser : HrzrParser}

theorem hrzr_number (carries : Loopback.Carries packet number words)
    (carried : Carries m udpRxPort packet.bytes) : m.headers.hrzr.toNat % 65536 = number := by
  have whole : packetSize ≤ packet.bytes.length := Nat.le_of_eq (length_bytes packet).symm
  have low := header_low packet (show 8 ≤ packetSize by decide)
  rw [List.take_of_length_le (Nat.le_of_eq (length_bytes packet)), carries.ctrlAndSeqNb] at low
  rw [carried.header whole]
  exact low

theorem sequenceNumber_misread (carries : Loopback.Carries packet number words)
    (carried : Carries m udpRxPort packet.bytes) : sequenceNumber m = misread number := by
  have word := hrzr_number carries carried
  rw [sequenceNumber, getSequenceNumberFromHeader_toNat, misread]
  omega

theorem accepted_iff_kept (carries : Loopback.Carries packet number words)
    (carried : Carries m udpRxPort packet.bytes) : Accepted udpRxPort m ↔ Kept number := by
  have word := hrzr_number carries carried
  have byte : m.headers.hrzr.toNat % 256 = number % 256 := by omega
  rw [carried.accepted_iff, getControlFromHeader_ok_iff, getControlFromHeader_ok_iff, byte, Kept,
    controlNibble, length_bytes, PacketType.control, PacketType.control]
  omega

theorem decided_iff (carries : Loopback.Carries packet number words)
    (carried : Carries m udpRxPort packet.bytes) :
    (∃ keep, accepts udpRxPort m = .ok keep) ↔ ¬ Unreadable number := by
  have word := hrzr_number carries carried
  have byte : m.headers.hrzr.toNat % 256 = number % 256 := by omega
  have bound : number % 256 < 256 := Nat.mod_lt _ (by decide)
  have addressed : Addressed udpRxPort m := by
    refine ⟨carried.nextProtoId, carried.etherType, carried.dstPort, ?_⟩
    have length := carried.pktLen
    rw [length_bytes] at length
    simp only [hrzrOffset, etherHdrSize, ipv4HdrSize, udpHdrSize, payloadSize, size,
      packetSize] at length ⊢
    omega
  rw [accepts_ok_iff, forall_prop_of_true addressed, Known, recognised_iff, byte, Unreadable,
    ← Loopback.controlNibble_nine _ bound]

/-- A sample as it was sent. -/
def sentSample (parser : HrzrParser) (words : List Int16) (position : Nat) : Sample :=
  ⟨(words.getD (position * 2) 0).toInt / parser.norm,
    (words.getD (position * 2 + 1) 0).toInt / parser.norm⟩

theorem payload_byte (carried : Carries m udpRxPort packet.bytes) {k : Nat}
    (bound : k < payloadSize) : m.data (size + k) = ofBytes packet.bytes (8 + k) := by
  have inside : 8 + k < packet.bytes.length := by
    rw [length_bytes, packetSize]
    rw [payloadSize] at bound
    omega
  rw [size, Nat.add_assoc, carried.bytes _ inside, ofBytes, List.getD_eq_getElem _ _ inside]

theorem decoded_sent (carries : Loopback.Carries packet number words)
    (carried : Carries m udpRxPort packet.bytes) {position : Nat}
    (bound : position < samplesPerPacket) :
    decoded parser (DpdkSource.payloadOf m) position = sentSample parser words position := by
  have word {place : Nat} (inside : place < samplesPerPacket * 2) :
      DpdkSource.payloadOf m place = words.getD place 0 := by
    have room : 2 * place + 1 < payloadSize := by
      rw [payloadSize]
      rw [samplesPerPacket_eq] at inside
      omega
    rw [← carries.samples place inside, ← IqClient.payloadAt_packet inside, DpdkSource.payloadOf,
      payloadAt, payloadAt]
    exact congrArg UInt16.toInt16 (load16_inj.mpr
      ⟨payload_byte carried (Nat.lt_of_succ_lt room), payload_byte carried room⟩)
  simp only [decoded, sentSample, word (show position * 2 < _ by omega),
    word (show position * 2 + 1 < _ by omega)]

end Frame

/-! ## A run of frames -/

/-- The frames carry full packets numbered on from `start`. -/
def Numbered (udpRxPort : UInt16) (start : Nat) (calls : List (List Int16 × SampleArray))
    (frames : List Mbuf) : Prop :=
  ∀ i m, frames[i]? = some m → ∃ packet call, calls[i]? = some call ∧
    Loopback.Carries packet (numberAt start i) call.1 ∧ Carries m udpRxPort packet.bytes

/-- What a thread has made of such frames: `quiet` of them come before the first whose
control field ends the process. -/
structure Heard (udpRxPort : UInt16) (start : Nat) (frames : List Mbuf) (quiet : Nat)
    (thread : RxThread) : Prop where
  within : quiet ≤ frames.length
  soon : quiet ≤ 208
  readable : ∀ i < quiet, ¬ Unreadable (numberAt start i)
  ended : thread.escaped.isSome = true ↔ quiet < frames.length
  unreadable : quiet < frames.length → Unreadable (numberAt start quiet)
  ring : thread.ring.items = (frames.take quiet).filter (Accepted udpRxPort ·)
  freed : thread.freed = (frames.take quiet).filter (¬ Accepted udpRxPort ·)
  kept : ∀ i m, frames[i]? = some m → (Accepted udpRxPort m ↔ Kept (numberAt start i))
  reports : ∀ i entry, thread.skips[i + 1]? = some entry →
    entry.map Skip.amounts = stepReport (numberAt start i)

/-- Of 209 packets in a row one is unreadable. -/
theorem unreadable_soon (start : Nat) : ∃ i ≤ 208, Unreadable (numberAt start i) := by
  have digit (i : Nat) : numberAt start i % 256 = (start + i) % 256 := by
    rw [numberAt]
    omega
  simp only [Unreadable, digit]
  rcases Nat.lt_or_ge (start % 256) 144 with low | high
  · exact ⟨144 - start % 256, by omega, by omega⟩
  · rcases Nat.lt_or_ge (start % 256) 192 with middle | last
    · exact ⟨176 - start % 256, by omega, by omega⟩
    · exact ⟨400 - start % 256, by omega, by omega⟩

section Run

variable {udpRxPort : UInt16} {start : Nat} {calls : List (List Int16 × SampleArray)}
  {frames : List Mbuf} {totals : Totals} {bursts : List Burst}

theorem quiet_frames (start count : Nat) : ∃ quiet ≤ count, quiet ≤ 208 ∧
    (∀ i < quiet, ¬ Unreadable (numberAt start i)) ∧
    (quiet < count → Unreadable (numberAt start quiet)) := by
  have soon := unreadable_soon start
  by_cases reached : Nat.find soon < count
  · exact ⟨Nat.find soon, Nat.le_of_lt reached, (Nat.find_spec soon).1,
      fun i before unreadable => Nat.find_min soon before
        ⟨Nat.le_of_lt (Nat.lt_of_lt_of_le before (Nat.find_spec soon).1), unreadable⟩,
      fun _ => (Nat.find_spec soon).2⟩
  · have early : count ≤ Nat.find soon := Nat.not_lt.mp reached
    have bound := (Nat.find_spec soon).1
    refine ⟨count, Nat.le_refl _, early.trans bound, fun i before unreadable => ?_,
      fun again => absurd again (Nat.lt_irrefl _)⟩
    exact Nat.find_min soon (Nat.lt_of_lt_of_le before early) ⟨by omega, unreadable⟩

theorem Numbered.reported (numbered : Numbered udpRxPort start calls frames) {i : Nat}
    {entry : Option Skip} (flat : bursts.flatMap Subtype.val = frames)
    (found : (RxThread.rxThread udpRxPort (.start totals) bursts).skips[i + 1]? = some entry) :
    entry.map Skip.amounts = stepReport (numberAt start i) := by
  obtain ⟨handled, ⟨rest, whole⟩, tracked, -⟩ :=
    RxThread.rxThread_tracking udpRxPort (.start totals) bursts
  have entered : ((Tracking.start totals).trackAll handled).skips[i + 1]? = some entry :=
    (congrArg (·.skips[i + 1]?) tracked.symm).trans found
  obtain ⟨previous, m, earlier, here, reported⟩ := trackAll_reported entered
  have place {j : Nat} {frame : Mbuf} (present : handled[j]? = some frame) :
      frames[j]? = some frame := by
    rw [← flat, ← whole,
      List.getElem?_append_left (List.getElem?_eq_some_iff.mp present).1, present]
  obtain ⟨_, _, -, carries, carried⟩ := numbered i previous (place earlier)
  obtain ⟨_, _, -, next, framed⟩ := numbered (i + 1) m (place here)
  have following : numberAt start (i + 1) = (numberAt start i + 1) % 4096 := by
    rw [numberAt, numberAt]
    omega
  rw [reported, sequenceNumber_misread carries carried, sequenceNumber_misread next framed,
    following]
  exact amountsBetween_misread (Nat.mod_lt _ (by decide))

theorem Numbered.decided (numbered : Numbered udpRxPort start calls frames) {quiet : Nat}
    (readable : ∀ i < quiet, ¬ Unreadable (numberAt start i)) :
    ∀ m ∈ frames.take quiet, ∃ keep, accepts udpRxPort m = .ok keep := by
  intro m member
  obtain ⟨i, found⟩ := List.mem_iff_getElem?.mp member
  obtain ⟨before, -⟩ := List.getElem?_eq_some_iff.mp found
  rw [List.length_take] at before
  have inside : i < quiet := by omega
  rw [List.getElem?_take_of_lt inside] at found
  obtain ⟨_, _, -, carries, carried⟩ := numbered i m found
  exact (decided_iff carries carried).mpr (readable i inside)

/-- Behind a frame that throws nothing is handled, and that frame goes nowhere. -/
theorem foldl_thrown {thread : RxThread} {m : Mbuf} (running : thread.escaped = none)
    (throws : ¬ ∃ keep, accepts udpRxPort m = .ok keep) (rest : List Mbuf) :
    let after := (m :: rest).foldl (RxThread.processPacket udpRxPort) thread
    after.escaped.isSome = true ∧ after.ring = thread.ring ∧ after.freed = thread.freed := by
  have handled : RxThread.Handled udpRxPort m thread (RxThread.processPacket udpRxPort thread m) :=
    RxThread.processPacket_handled running
  cases handled with
  | accepted accepted ring freed escaped => exact absurd ⟨true, accepted⟩ throws
  | refused refused ring freed escaped => exact absurd ⟨false, refused⟩ throws
  | thrown thrown unknown ring freed escaped =>
    have ended : (RxThread.processPacket udpRxPort thread m).escaped.isSome = true := by
      rw [escaped]
      rfl
    rw [List.foldl_cons, RxThread.foldl_escaped ended]
    exact ⟨ended, ring, freed⟩

/-- Where the frames go: the ring has room for all that are read. -/
theorem Numbered.fates (numbered : Numbered udpRxPort start calls frames) (totals : Totals)
    {quiet : Nat} (soon : quiet ≤ 208)
    (readable : ∀ i < quiet, ¬ Unreadable (numberAt start i))
    (unreadable : quiet < frames.length → Unreadable (numberAt start quiet)) :
    let after := frames.foldl (RxThread.processPacket udpRxPort) (.start totals)
    (after.escaped.isSome = true ↔ quiet < frames.length) ∧
      after.ring.items = (frames.take quiet).filter (Accepted udpRxPort ·) ∧
      after.freed = (frames.take quiet).filter (¬ Accepted udpRxPort ·) := by
  have started : (RxThread.start totals).escaped = none := rfl
  obtain ⟨running, ring, freed⟩ := RxThread.foldl_fates started (numbered.decided readable)
  have stored : ((frames.take quiet).foldl (RxThread.processPacket udpRxPort)
      (.start totals)).ring.items = (frames.take quiet).filter (Accepted udpRxPort ·) := by
    have few := (List.length_filter_le (Accepted udpRxPort ·) (frames.take quiet)).trans
      (List.length_take_le quiet frames)
    rw [ring, BoundedQueue.foldl_enqueue_items]
    · rfl
    · simp only [RxThread.start, BoundedQueue.empty, List.length_nil, ringSize]
      omega
  have split : frames.foldl (RxThread.processPacket udpRxPort) (.start totals) =
      (frames.drop quiet).foldl (RxThread.processPacket udpRxPort)
        ((frames.take quiet).foldl (RxThread.processPacket udpRxPort) (.start totals)) := by
    rw [← List.foldl_append, List.take_append_drop]
  simp only [split]
  rcases Nat.lt_or_ge quiet frames.length with more | all
  · obtain ⟨_, _, -, carries, carried⟩ :=
      numbered quiet frames[quiet] (List.getElem?_eq_getElem more)
    have throws : ¬ ∃ keep, accepts udpRxPort frames[quiet] = .ok keep := fun decided =>
      (decided_iff carries carried).mp decided (unreadable more)
    obtain ⟨ended, sameRing, sameFreed⟩ := foldl_thrown running throws (frames.drop (quiet + 1))
    rw [List.drop_eq_getElem_cons more]
    exact ⟨iff_of_true ended more, (congrArg BoundedQueue.items sameRing).trans stored,
      sameFreed.trans freed⟩
  · have ended : (frames.drop quiet).foldl (RxThread.processPacket udpRxPort)
        ((frames.take quiet).foldl (RxThread.processPacket udpRxPort) (.start totals)) =
        (frames.take quiet).foldl (RxThread.processPacket udpRxPort) (.start totals) := by
      rw [List.drop_of_length_le all, List.foldl_nil]
    rw [ended, running]
    exact ⟨iff_of_false Bool.false_ne_true (Nat.not_lt.mpr all), stored, freed⟩

theorem Numbered.heard (numbered : Numbered udpRxPort start calls frames)
    (flat : bursts.flatMap Subtype.val = frames) :
    ∃ quiet, Heard udpRxPort start frames quiet
      (RxThread.rxThread udpRxPort (.start totals) bursts) := by
  obtain ⟨quiet, within, soon, readable, unreadable⟩ := quiet_frames start frames.length
  have whole : RxThread.rxThread udpRxPort (.start totals) bursts =
      frames.foldl (RxThread.processPacket udpRxPort) (.start totals) := by
    rw [RxThread.rxThread_eq, flat]
  have fates := numbered.fates totals soon readable unreadable
  rw [← whole] at fates
  refine ⟨quiet, within, soon, readable, fates.1, unreadable, fates.2.1, fates.2.2, ?_, ?_⟩
  · intro i m found
    obtain ⟨_, _, -, carries, carried⟩ := numbered i m found
    exact accepted_iff_kept carries carried
  · intro i entry found
    exact numbered.reported flat found

/-- A burst that a caller is handed is decoded to what was sent. -/
theorem Numbered.samples (numbered : Numbered udpRxPort start calls frames) {k n p : Nat}
    {call : List Int16 × SampleArray} (length : frames.length = calls.length) (inside : p < n)
    (found : calls[k + p]? = some call) (parser : HrzrParser) (samples : SampleBuffer)
    {position : Nat} (bound : position < samplesPerPacket) :
    (DpdkSource.getSamples parser ((frames.drop k).take n) samples).samples.cells
      (samplesPerPacket * p + position) = sentSample parser call.1 position := by
  have within : k + p < frames.length := by
    rw [length]
    exact (List.getElem?_eq_some_iff.mp found).1
  have place : p < ((frames.drop k).take n).length := by
    rw [List.length_take, List.length_drop]
    omega
  obtain ⟨packet, other, same, carries, carried⟩ :=
    numbered (k + p) frames[k + p] (List.getElem?_eq_getElem within)
  cases Option.some.inj (found.symm.trans same)
  rw [DpdkSource.getSamples_cell parser samples place bound, List.getElem_take, List.getElem_drop]
  exact decoded_sent carries carried bound

end Run

end JerryDriver.DpdkLoopback
