import JerryDriver.Hrzr.HeaderParser
import JerryDriver.Hrzr.Parser

/-! The UDP sample source. A call receives into the object's own 1472-byte buffer,
once for every packet that it asks for, and hands the buffer to the parser where it
begins. A `recv` that finds nothing waits, so a call may be left in the middle. -/
namespace JerryDriver
open ByteMemory Definitions HrzrHeaderParser HrzrParser

structure UdpSource where
  parser : HrzrParser
  buf : Memory

namespace UdpSource

/-- What `recv` finds: an error, or a datagram of any length. -/
inductive Received where
  | failed
  | datagram (payload : List UInt8)

/-- `recv` with room for 1472 bytes: what does not fit is discarded, and a shorter
datagram leaves the rest of the buffer as it was. -/
def recvInto (buf : Memory) (payload : List UInt8) : Nat × Memory :=
  let ret := min payload.length packetSize
  (ret, fun i => if i < ret then payload.getD i 0 else buf i)

inductive Ending where
  | returned
  | exited
  | thrown (thrown : Thrown)

/-- A call between two iterations; without an ending it is still going on. -/
structure Reception where
  buf : Memory
  samples : SampleBuffer
  totalSamplesReceived : Nat
  ending : Option Ending

def processPacket (parser : HrzrParser) (packetIdx : Nat) (payload : List UInt8)
    (reception : Reception) : Reception :=
  let (ret, buf) := recvInto reception.buf payload
  let reception := { reception with buf }
  if ret ≠ packetSize then reception
  else
    match getControlFromHeader (load64 buf 0) with
    | .error thrown => { reception with ending := some (.thrown thrown) }
    | .ok .data =>
      let (samplesReceived, samples) :=
        parsePayloadSamples parser packetIdx (payloadAt buf 0) reception.samples
      { reception with
          samples
          totalSamplesReceived := reception.totalSamplesReceived + samplesReceived }
    | .ok _ => reception

def receiveLoop (parser : HrzrParser) :
    List Received → (packets packetIdx : Nat) → Reception → Reception
  | _, 0, _, reception => { reception with ending := some .returned }
  -- `recv` waits for a datagram, so the call has not returned.
  | [], _ + 1, _, reception => reception
  | .failed :: _, _ + 1, _, reception => { reception with ending := some .exited }
  | .datagram payload :: rest, packets + 1, packetIdx, reception =>
    let reception := processPacket parser packetIdx payload reception
    if reception.ending.isSome then reception
    else receiveLoop parser rest packets (packetIdx + 1) reception

/-- A call, as far as the receptions that happen during it carry it. -/
def getSamples (source : UdpSource) (numberOfSamples : Nat) (received : List Received)
    (samples : SampleBuffer) : Reception :=
  receiveLoop source.parser received (numberOfSamples / samplesPerPacket + 1) 0
    ⟨source.buf, samples, 0, none⟩

def headerOf (payload : List UInt8) : UInt64 := load64 (ofBytes payload) 0

/-- A datagram that fills the buffer and starts as a data packet does. -/
def Decodes (payload : List UInt8) : Prop :=
  packetSize ≤ payload.length ∧ getControlFromHeader (headerOf payload) = .ok .data

def Passes : Received → Prop
  | .failed => False
  | .datagram payload =>
    packetSize ≤ payload.length → ∃ type, getControlFromHeader (headerOf payload) = .ok type

/-- The call comes to the reception at a position, and decodes it. -/
def Reaches (received : List Received) (position : Nat) : Prop :=
  ∃ payload, received[position]? = some (.datagram payload) ∧ Decodes payload ∧
    ∀ earlier ∈ received.take position, Passes earlier

variable {parser : HrzrParser} {packetIdx : Nat} {payload : List UInt8} {reception : Reception}

theorem recvInto_full (full : packetSize ≤ payload.length) (buf : Memory) :
    (recvInto buf payload).1 = packetSize ∧
      ∀ i < packetSize, (recvInto buf payload).2 i = payload.getD i 0 := by
  have ret : (recvInto buf payload).1 = packetSize := Nat.min_eq_right full
  refine ⟨ret, fun i inside => ?_⟩
  change (if i < (recvInto buf payload).1 then payload.getD i 0 else buf i) = _
  rw [ret, if_pos inside]

theorem recvInto_header (full : packetSize ≤ payload.length) (buf : Memory) :
    load64 (recvInto buf payload).2 0 = headerOf payload := by
  apply load64_congr
  intro i inside
  rw [Nat.zero_add]
  exact (recvInto_full full buf).2 i (Nat.lt_of_lt_of_le inside (by decide))

inductive Processed (parser : HrzrParser) (packetIdx : Nat) (payload : List UInt8)
    (before after : Reception) : Prop where
  | decoded (decodes : Decodes payload) (buf : Memory)
      (bytes : ∀ i < packetSize, buf i = payload.getD i 0)
      (samples : after.samples =
        (parsePayloadSamples parser packetIdx (payloadAt buf 0) before.samples).2)
      (total : after.totalSamplesReceived = before.totalSamplesReceived + samplesPerPacket)
      (ending : after.ending = before.ending)
  | skipped (refused : ¬ Decodes payload) (passes : Passes (.datagram payload))
      (samples : after.samples = before.samples)
      (total : after.totalSamplesReceived = before.totalSamplesReceived)
      (ending : after.ending = before.ending)
  | escaped (refused : ¬ Passes (.datagram payload)) (samples : after.samples = before.samples)
      (total : after.totalSamplesReceived = before.totalSamplesReceived)
      (ending : after.ending.isSome = true)

theorem processPacket_processed : Processed parser packetIdx payload reception
    (processPacket parser packetIdx payload reception) := by
  by_cases full : packetSize ≤ payload.length
  · obtain ⟨ret, bytes⟩ := recvInto_full full reception.buf
    have header := recvInto_header full reception.buf
    simp only [processPacket, ret, header, ne_eq, not_true_eq_false, if_false]
    split
    · rename_i thrown control
      refine .escaped ?_ rfl rfl rfl
      intro passes
      obtain ⟨type, known⟩ := passes full
      rw [control] at known
      contradiction
    · rename_i control
      exact .decoded ⟨full, control⟩ (recvInto reception.buf payload).2 bytes rfl
        (congrArg (reception.totalSamplesReceived + ·) parsePayloadSamples_total) rfl
    · rename_i type notData control
      refine .skipped ?_ (fun _ => ⟨type, control⟩) rfl rfl rfl
      rintro ⟨_, data⟩
      rw [control] at data
      exact notData (Except.ok.inj data)
  · have ret : (recvInto reception.buf payload).1 ≠ packetSize := by
      change min payload.length packetSize ≠ packetSize
      omega
    simp only [processPacket, ret, ne_eq, not_false_eq_true, if_true]
    exact .skipped (fun decodes => full decodes.1) (fun held => absurd held full) rfl rfl rfl

theorem reaches_succ (received : Received) (rest : List Received) (position : Nat) :
    Reaches (received :: rest) (position + 1) ↔ Passes received ∧ Reaches rest position := by
  simp only [Reaches, List.getElem?_cons_succ, List.take_succ_cons, List.forall_mem_cons]
  constructor
  · rintro ⟨payload, found, decodes, passes, earlier⟩
    exact ⟨passes, payload, found, decodes, earlier⟩
  · rintro ⟨passes, payload, found, decodes, earlier⟩
    exact ⟨payload, found, decodes, passes, earlier⟩

theorem reaches_zero (payload : List UInt8) (rest : List Received) :
    Reaches (.datagram payload :: rest) 0 ↔ Decodes payload := by
  simp [Reaches]

theorem not_reaches_nil (position : Nat) : ¬ Reaches [] position := by
  rintro ⟨payload, found, -⟩
  contradiction

theorem not_reaches_failed (rest : List Received) (position : Nat) :
    ¬ Reaches (.failed :: rest) position := by
  cases position with
  | zero => simp [Reaches]
  | succ position => simp [reaches_succ, Passes]

theorem Decodes.passes (decodes : Decodes payload) : Passes (.datagram payload) :=
  fun _ => ⟨.data, decodes.2⟩

/-- Of the blocks of a loop the first is the datagram's at hand. -/
theorem reached_blocks (payload : List UInt8) (rest : List Received) (packets first block : Nat) :
    (∃ position < packets + 1, block = first + position ∧
      Reaches (.datagram payload :: rest) position) ↔
    (block = first ∧ Decodes payload) ∨ (Passes (.datagram payload) ∧
      ∃ position < packets, block = first + 1 + position ∧ Reaches rest position) := by
  rw [Nat.exists_lt_succ_left]
  simp only [reaches_zero, reaches_succ, Nat.add_zero]
  refine or_congr_right ?_
  constructor
  · rintro ⟨position, bound, here, passes, reaches⟩
    exact ⟨passes, position, bound, by omega, reaches⟩
  · rintro ⟨passes, position, bound, here, reaches⟩
    exact ⟨position, bound, by omega, passes, reaches⟩

/-- The indices a call assigns are those of the blocks it comes to and decodes. -/
theorem receiveLoop_written (received : List Received) (packets packetIdx : Nat)
    (reception : Reception) (running : reception.ending = none) (index : Nat) :
    index ∈ (receiveLoop parser received packets packetIdx reception).samples.written ↔
      index ∈ reception.samples.written ∨ ∃ position < packets,
        index / samplesPerPacket = packetIdx + position ∧ Reaches received position := by
  induction packets generalizing received packetIdx reception with
  | zero => simp [receiveLoop]
  | succ packets ih =>
    match received with
    | [] => simp [receiveLoop, not_reaches_nil]
    | .failed :: rest => simp [receiveLoop, not_reaches_failed]
    | .datagram payload :: rest =>
      have processed : Processed parser packetIdx payload reception
        (processPacket parser packetIdx payload reception) := processPacket_processed
      rw [receiveLoop, reached_blocks]
      generalize processPacket parser packetIdx payload reception = after at processed
      cases processed with
      | decoded decodes buf bytes samples total ending =>
        have goes : after.ending = none := ending.trans running
        simp only [goes, Option.isSome_none, Bool.false_eq_true, if_false]
        rw [ih rest (packetIdx + 1) after goes, samples, parsePayloadSamples_written, or_assoc]
        simp only [decodes, decodes.passes, and_true, true_and]
      | skipped refused passes samples total ending =>
        have goes : after.ending = none := ending.trans running
        simp only [goes, Option.isSome_none, Bool.false_eq_true, if_false]
        rw [ih rest (packetIdx + 1) after goes, samples]
        simp only [refused, passes, and_false, false_or, true_and]
      | escaped refused samples total ending =>
        have stays : ¬ Decodes payload := fun decodes => refused decodes.passes
        simp only [ending, if_true, samples, refused, stays, and_false, false_and, or_false]

theorem Processed.total_of_refused {after : Reception} (refused : ¬ Decodes payload)
    (processed : Processed parser packetIdx payload reception after) :
    after.totalSamplesReceived = reception.totalSamplesReceived := by
  cases processed with
  | decoded decodes => exact absurd decodes refused
  | skipped refused passes samples total => exact total
  | escaped refused samples total => exact total

theorem Processed.total_le {after : Reception}
    (processed : Processed parser packetIdx payload reception after) :
    after.totalSamplesReceived ≤ reception.totalSamplesReceived + samplesPerPacket := by
  cases processed with
  | decoded decodes buf bytes samples total => exact Nat.le_of_eq total
  | skipped refused passes samples total => exact total.trans_le (Nat.le_add_right _ _)
  | escaped refused samples total => exact total.trans_le (Nat.le_add_right _ _)

/-- A loop counts at most one packet's samples a turn. -/
theorem receiveLoop_total_le_packets (received : List Received) (packets packetIdx : Nat)
    (reception : Reception) :
    (receiveLoop parser received packets packetIdx reception).totalSamplesReceived ≤
      reception.totalSamplesReceived + packets * samplesPerPacket := by
  induction packets generalizing received packetIdx reception with
  | zero => simp [receiveLoop]
  | succ packets ih =>
    cases received with
    | nil => exact Nat.le_add_right _ _
    | cons first rest =>
      cases first with
      | failed => exact Nat.le_add_right _ _
      | datagram payload =>
        have processed : Processed parser packetIdx payload reception
          (processPacket parser packetIdx payload reception) := processPacket_processed
        have counted := processed.total_le
        rw [receiveLoop, Nat.succ_mul]
        split
        · omega
        · have later := ih rest (packetIdx + 1) (processPacket parser packetIdx payload reception)
          omega

/-- A loop over one packet more than it may count stays within its count, unless it
comes to the last packet and decodes that one too. -/
theorem receiveLoop_total_le (parser : HrzrParser) (received : List Received)
    (packets packetIdx : Nat)
    (reception : Reception) (last : ¬ Reaches received packets) :
    (receiveLoop parser received (packets + 1) packetIdx reception).totalSamplesReceived ≤
      reception.totalSamplesReceived + packets * samplesPerPacket := by
  induction packets generalizing received packetIdx reception with
  | zero =>
    match received with
    | [] => exact Nat.le_add_right _ _
    | .failed :: rest => exact Nat.le_add_right _ _
    | .datagram payload :: rest =>
      rw [reaches_zero] at last
      have processed : Processed parser packetIdx payload reception
        (processPacket parser packetIdx payload reception) := processPacket_processed
      have total := processed.total_of_refused last
      rw [receiveLoop, Nat.zero_mul, Nat.add_zero]
      split
      · exact Nat.le_of_eq total
      · rw [receiveLoop]
        exact Nat.le_of_eq total
  | succ packets ih =>
    match received with
    | [] => exact Nat.le_add_right _ _
    | .failed :: rest => exact Nat.le_add_right _ _
    | .datagram payload :: rest =>
      have processed : Processed parser packetIdx payload reception
        (processPacket parser packetIdx payload reception) := processPacket_processed
      have counted := processed.total_le
      rw [receiveLoop, Nat.succ_mul]
      generalize processPacket parser packetIdx payload reception = after at processed counted
      split
      · exact counted.trans (by omega)
      · rename_i goes
        have passes : Passes (.datagram payload) := by
          cases processed with
          | decoded decodes => exact decodes.passes
          | skipped refused passes => exact passes
          | escaped refused samples total ending => exact absurd ending goes
        have later := ih rest (packetIdx + 1) after
          fun reaches => last ((reaches_succ _ _ _).mpr ⟨passes, reaches⟩)
        omega

end UdpSource
end JerryDriver
