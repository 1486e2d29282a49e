import JerryDriver.Udp.Source
import Mathlib.Data.List.Forall2

/-! What a call makes of the datagrams it comes to. Each turn of the loop takes one
datagram, and the datagram's turn is also its place among the blocks, whether the
datagrams before it were decoded or not. -/
namespace JerryDriver.UdpSource
open ByteMemory Definitions HrzrHeaderParser HrzrParser

/-- The datagrams of a loop of so many turns, if none of them makes it throw. -/
def heard : List Received → (packets : Nat) → List (List UInt8)
  | .datagram payload :: rest, packets + 1 => payload :: heard rest packets
  | _, _ => []

instance (payload : List UInt8) : Decidable (Decodes payload) :=
  inferInstanceAs (Decidable (_ ∧ _))

/-- The datagrams that are decoded, each with the block it goes to. -/
def placed : (packetIdx : Nat) → List (List UInt8) → List (Nat × List UInt8)
  | _, [] => []
  | packetIdx, payload :: rest =>
    if Decodes payload then (packetIdx, payload) :: placed (packetIdx + 1) rest
    else placed (packetIdx + 1) rest

def place (parser : HrzrParser) (samples : SampleBuffer) (block : Nat × List UInt8) :
    SampleBuffer :=
  (parsePayloadSamples parser block.1 (payloadAt (ofBytes block.2) 0) samples).2

variable {parser : HrzrParser} {packetIdx : Nat} {payload : List UInt8}
  {payloads : List (List UInt8)} {reception : Reception}

theorem heard_zero (received : List Received) : heard received 0 = [] := by
  unfold heard
  split
  · contradiction
  · rfl

theorem heard_datagrams (payloads : List (List UInt8)) (packets : Nat) :
    heard (payloads.map .datagram) packets = payloads.take packets := by
  induction payloads generalizing packets with
  | nil => cases packets <;> rfl
  | cons payload rest ih =>
    cases packets with
    | zero => rfl
    | succ packets => rw [List.map_cons, heard, ih, List.take_succ_cons]

theorem placed_payloads (packetIdx : Nat) (payloads : List (List UInt8)) :
    (placed packetIdx payloads).map Prod.snd = payloads.filter (Decodes ·) := by
  induction payloads generalizing packetIdx with
  | nil => rfl
  | cons payload rest ih =>
    by_cases decodes : Decodes payload
    · rw [placed, if_pos decodes, List.map_cons, ih,
        List.filter_cons_of_pos (by simpa using decodes)]
    · rw [placed, if_neg decodes, ih, List.filter_cons_of_neg (by simpa using decodes)]

theorem placed_ge {block : Nat × List UInt8} (member : block ∈ placed packetIdx payloads) :
    packetIdx ≤ block.1 := by
  induction payloads generalizing packetIdx with
  | nil => contradiction
  | cons payload rest ih =>
    rw [placed] at member
    split at member
    · rcases List.mem_cons.mp member with rfl | later
      · exact Nat.le_refl _
      · exact Nat.le_of_succ_le (ih later)
    · exact Nat.le_of_succ_le (ih member)

theorem payloadAt_received {buf : Memory} (bytes : ∀ i < packetSize, buf i = payload.getD i 0)
    {index : Nat} (bound : index < samplesPerPacket * 2) :
    payloadAt buf 0 index = payloadAt (ofBytes payload) 0 index := by
  rw [samplesPerPacket_eq] at bound
  have word : load16 buf (0 + 2 * index) = load16 (ofBytes payload) (0 + 2 * index) := by
    refine load16_inj.mpr ⟨bytes _ ?_, bytes _ ?_⟩
    · rw [packetSize]
      omega
    · rw [packetSize]
      omega
  rw [payloadAt, payloadAt, word]

/-- A datagram that does not pass makes the call throw. -/
theorem processPacket_thrown (refused : ¬ Passes (.datagram payload)) :
    ∃ thrown, (processPacket parser packetIdx payload reception).ending =
      some (.thrown thrown) := by
  obtain ⟨full, unknown⟩ := Classical.not_imp.mp refused
  obtain ⟨thrown, control⟩ := (not_recognised_iff _).mp unknown
  have ret := (recvInto_full full reception.buf).1
  have header := recvInto_header full reception.buf
  refine ⟨thrown, ?_⟩
  simp only [processPacket, ret, header, control, ne_eq, not_true_eq_false, if_false]

/-- One turn with a datagram that passes, whatever is done with it. -/
theorem processPacket_passing (passes : Passes (.datagram payload)) :
    (processPacket parser packetIdx payload reception).samples =
        (placed packetIdx [payload]).foldl (place parser) reception.samples ∧
      (processPacket parser packetIdx payload reception).totalSamplesReceived =
        reception.totalSamplesReceived + ([payload].filter (Decodes ·)).length * samplesPerPacket ∧
      (processPacket parser packetIdx payload reception).ending = reception.ending := by
  have processed : Processed parser packetIdx payload reception
    (processPacket parser packetIdx payload reception) := processPacket_processed
  generalize processPacket parser packetIdx payload reception = after at processed
  cases processed with
  | decoded decodes buf bytes samples total ending =>
    have words : parsePayloadSamples parser packetIdx (payloadAt buf 0) reception.samples =
        parsePayloadSamples parser packetIdx (payloadAt (ofBytes payload) 0) reception.samples :=
      parsePayloadSamples_congr fun index bound => payloadAt_received bytes bound
    refine ⟨?_, ?_, ending⟩
    · rw [samples, words, placed, if_pos decodes]
      rfl
    · rw [total, List.filter_cons_of_pos (by simpa using decodes), List.filter_nil,
        List.length_singleton, Nat.one_mul]
  | skipped refused _ samples total ending =>
    refine ⟨?_, ?_, ending⟩
    · rw [samples, placed, if_neg refused]
      rfl
    · rw [total, List.filter_cons_of_neg (by simpa using refused), List.filter_nil,
        List.length_nil, Nat.zero_mul, Nat.add_zero]
  | escaped refused => exact absurd passes refused

theorem placed_append (packetIdx : Nat) (payload : List UInt8) (rest : List (List UInt8)) :
    placed packetIdx (payload :: rest) =
      placed packetIdx [payload] ++ placed (packetIdx + 1) rest := by
  rw [placed, placed]
  split <;> rfl

/-- The call, when it lets every datagram pass that it comes to. -/
theorem receiveLoop_samples (received : List Received) (packets packetIdx : Nat)
    (reception : Reception) (running : reception.ending = none)
    (passes : ∀ payload ∈ heard received packets, Passes (.datagram payload)) :
    (receiveLoop parser received packets packetIdx reception).samples =
        (placed packetIdx (heard received packets)).foldl (place parser) reception.samples ∧
      (receiveLoop parser received packets packetIdx reception).totalSamplesReceived =
        reception.totalSamplesReceived +
          ((heard received packets).filter (Decodes ·)).length * samplesPerPacket ∧
      ∀ thrown, (receiveLoop parser received packets packetIdx reception).ending ≠
        some (.thrown thrown) := by
  induction packets generalizing received packetIdx reception with
  | zero => simp [receiveLoop, heard_zero, placed]
  | succ packets ih =>
    cases received with
    | nil => simp [receiveLoop, heard, placed, running]
    | cons first rest =>
      cases first with
      | failed => simp [receiveLoop, heard, placed]
      | datagram payload =>
        rw [heard] at passes
        obtain ⟨samples, total, ending⟩ := @processPacket_passing parser packetIdx payload
          reception (passes payload List.mem_cons_self)
        rw [running] at ending
        obtain ⟨later, counted, caught⟩ := ih rest (packetIdx + 1)
          (processPacket parser packetIdx payload reception) ending
          fun other member => passes other (List.mem_cons_of_mem _ member)
        simp only [receiveLoop, ending, Option.isSome_none, Bool.false_eq_true, if_false]
        refine ⟨?_, ?_, caught⟩
        · rw [later, samples, heard, placed_append packetIdx payload (heard rest packets),
            List.foldl_append]
        · have parts : (payload :: heard rest packets).filter (Decodes ·) =
              [payload].filter (Decodes ·) ++ (heard rest packets).filter (Decodes ·) := by
            rw [← List.filter_append, List.singleton_append]
          rw [counted, total, heard, parts, List.length_append, Nat.add_mul, Nat.add_assoc]

/-- The first datagram that does not pass ends the call by an exception. -/
theorem receiveLoop_thrown (received : List Received) (packets packetIdx : Nat)
    (reception : Reception) (running : reception.ending = none) (payload : List UInt8)
    (member : payload ∈ heard received packets) (refused : ¬ Passes (.datagram payload)) :
    ∃ thrown, (receiveLoop parser received packets packetIdx reception).ending =
      some (.thrown thrown) := by
  induction packets generalizing received packetIdx reception with
  | zero =>
    rw [heard_zero] at member
    contradiction
  | succ packets ih =>
    cases received with
    | nil => contradiction
    | cons next rest =>
      cases next with
      | failed => contradiction
      | datagram first =>
        rw [receiveLoop]
        by_cases passes : Passes (.datagram first)
        · have goes : (processPacket parser packetIdx first reception).ending = none :=
            (processPacket_passing passes).2.2.trans running
          rw [heard] at member
          rcases List.mem_cons.mp member with rfl | later
          · exact absurd passes refused
          · simp only [goes, Option.isSome_none, Bool.false_eq_true, if_false]
            exact ih rest (packetIdx + 1) _ goes later
        · obtain ⟨thrown, ending⟩ := @processPacket_thrown parser packetIdx first reception passes
          simp only [ending, Option.isSome_some, if_true]
          exact ⟨thrown, rfl⟩

/-! ## The blocks -/

theorem placed_decodes {payload : List UInt8} (decodes : Decodes payload) (packetIdx : Nat)
    (rest : List (List UInt8)) :
    placed packetIdx (payload :: rest) = (packetIdx, payload) :: placed (packetIdx + 1) rest :=
  if_pos decodes

theorem placed_skips {payload : List UInt8} (skips : ¬ Decodes payload) (packetIdx : Nat)
    (rest : List (List UInt8)) :
    placed packetIdx (payload :: rest) = placed (packetIdx + 1) rest :=
  if_neg skips

/-- A cell in no block of a datagram that decodes keeps its sample. -/
theorem foldl_place_rest {payloads : List (List UInt8)} {packetIdx index : Nat}
    (samples : SampleBuffer) (outside : ∀ i payload, payloads[i]? = some payload →
      Decodes payload → index / samplesPerPacket ≠ packetIdx + i) :
    ((placed packetIdx payloads).foldl (place parser) samples).cells index =
      samples.cells index := by
  induction payloads generalizing packetIdx samples with
  | nil => rfl
  | cons payload rest ih =>
    have later (i : Nat) (other : List UInt8) (found : rest[i]? = some other)
        (decodes : Decodes other) : index / samplesPerPacket ≠ packetIdx + 1 + i := by
      have apart := outside (i + 1) other (by simpa using found) decodes
      omega
    by_cases decodes : Decodes payload
    · have apart : index / samplesPerPacket ≠ packetIdx := outside 0 payload rfl decodes
      rw [placed_decodes decodes, List.foldl_cons, ih _ later, place, parsePayloadSamples_cells,
        if_neg apart]
    · rw [placed_skips decodes, ih _ later]

/-- A datagram that decodes fills the block of its turn. -/
theorem foldl_place_data {payloads : List (List UInt8)} {packetIdx i : Nat} {index : Nat}
    {payload : List UInt8} (samples : SampleBuffer) (found : payloads[i]? = some payload)
    (decodes : Decodes payload) (block : index / samplesPerPacket = packetIdx + i) :
    ((placed packetIdx payloads).foldl (place parser) samples).cells index =
      decoded parser (payloadAt (ofBytes payload) 0) (index % samplesPerPacket) := by
  induction payloads generalizing packetIdx i samples with
  | nil => simp at found
  | cons first rest ih =>
    cases i with
    | zero =>
      cases Option.some.inj found
      rw [placed_decodes decodes, List.foldl_cons, foldl_place_rest, place,
        parsePayloadSamples_cells]
      · exact if_pos block
      · intro i other _ _ same
        omega
    | succ i =>
      have behind : index / samplesPerPacket = packetIdx + 1 + i := by omega
      by_cases here : Decodes first
      · rw [placed_decodes here, List.foldl_cons, ih _ (by simpa using found) behind]
      · rw [placed_skips here, ih _ (by simpa using found) behind]

end JerryDriver.UdpSource
