import JerryDriver.Udp.Receptions

/-! Whether the samples that a UDP call counts are the first ones of the caller's buffer.
A datagram's place is its turn in the loop, so every turn that decodes nothing leaves a
block out, and the blocks behind it end up later than their count says. -/
namespace JerryDriver.UdpSource
open ByteMemory Definitions HrzrParser

/-- The data packets that a call decodes, in the order of reception. -/
def accepted (numberOfSamples : Nat) (received : List Received) : List (List UInt8) :=
  (heard received (numberOfSamples / samplesPerPacket + 1)).filter (Decodes ·)

def payloadsOf (payloads : List (List UInt8)) : List (Nat → Int16) :=
  payloads.map fun payload => payloadAt (ofBytes payload) 0

/-- The counted samples are the decoded blocks without gaps, and no other was assigned. -/
structure Gapless (parser : HrzrParser) (accepted : List (List UInt8)) (samples : SampleBuffer)
    (returned : Nat) : Prop where
  data : (List.range returned).map samples.cells =
    (payloadsOf accepted).flatMap fun payload =>
      (List.range samplesPerPacket).map (decoded parser payload)
  written : ∀ index ∈ samples.written, index < returned

/-- Nothing that is not decoded is received before something that is. -/
def DecodedFirst (payloads : List (List UInt8)) : Prop :=
  payloads.Pairwise fun earlier later => Decodes later → Decodes earlier

variable {parser : HrzrParser} {packetIdx : Nat} {payloads : List (List UInt8)}

theorem placed_eq_nil :
    placed packetIdx payloads = [] ↔ ∀ payload ∈ payloads, ¬ Decodes payload := by
  rw [← List.map_eq_nil_iff, placed_payloads, List.filter_eq_nil_iff]
  simp only [decide_eq_true_eq]

/-- Datagrams that are decoded first are decoded to consecutive blocks. -/
theorem DecodedFirst.placed (first : DecodedFirst payloads) (samples : SampleBuffer) :
    (placed packetIdx payloads).foldl (place parser) samples =
      parseBlocks parser (payloadsOf (payloads.filter (Decodes ·))) packetIdx samples := by
  induction payloads generalizing packetIdx samples with
  | nil => rfl
  | cons payload rest ih =>
    obtain ⟨before, restFirst⟩ := List.pairwise_cons.mp first
    by_cases decodes : Decodes payload
    · rw [UdpSource.placed, if_pos decodes, List.filter_cons_of_pos (by simpa using decodes),
        List.foldl_cons, ih restFirst, payloadsOf, payloadsOf, List.map_cons, parseBlocks]
      rfl
    · have none : ∀ later ∈ rest, ¬ Decodes later :=
        fun later member known => decodes (before later member known)
      have nothing : rest.filter (Decodes ·) = [] :=
        List.filter_eq_nil_iff.mpr (by simpa using none)
      rw [UdpSource.placed, if_neg decodes, placed_eq_nil.mpr none,
        List.filter_cons_of_neg (by simpa using decodes), nothing]
      rfl

theorem foldl_place_written (blocks : List (Nat × List UInt8)) (samples : SampleBuffer)
    (index : Nat) : index ∈ (blocks.foldl (place parser) samples).written ↔
      index ∈ samples.written ∨ index / samplesPerPacket ∈ blocks.map Prod.fst := by
  induction blocks generalizing samples with
  | nil => simp
  | cons block rest ih =>
    rw [List.foldl_cons, ih, place, parsePayloadSamples_written, List.map_cons, List.mem_cons,
      or_assoc]

/-- As the places increase, some block is at least as late as their number says. -/
theorem exists_late_place (decodes : ∃ payload ∈ payloads, Decodes payload) :
    ∃ place ∈ (placed packetIdx payloads).map Prod.fst,
      packetIdx + (payloads.filter (Decodes ·)).length ≤ place + 1 := by
  induction payloads generalizing packetIdx with
  | nil => simp at decodes
  | cons payload rest ih =>
    by_cases later : ∃ payload ∈ rest, Decodes payload
    · obtain ⟨place, member, late⟩ := @ih (packetIdx + 1) later
      have count : ((payload :: rest).filter (Decodes ·)).length ≤
          (rest.filter (Decodes ·)).length + 1 := by
        rw [List.filter_cons]
        split
        · exact Nat.le_refl _
        · exact Nat.le_succ _
      refine ⟨place, ?_, by omega⟩
      rw [placed]
      split
      · exact List.mem_cons_of_mem _ member
      · exact member
    · have nothing : rest.filter (Decodes ·) = [] := by
        refine List.filter_eq_nil_iff.mpr fun other member known => later ⟨other, member, ?_⟩
        simpa using known
      have here : Decodes payload := by
        obtain ⟨other, member, known⟩ := decodes
        rcases List.mem_cons.mp member with rfl | behind
        · exact known
        · exact absurd ⟨other, behind, known⟩ later
      refine ⟨packetIdx, ?_, ?_⟩
      · rw [placed, if_pos here]
        exact List.mem_cons_self
      · rw [List.filter_cons_of_pos (by simpa using here), nothing, List.length_singleton]

/-- Only datagrams that are decoded first all have places below their number. -/
theorem decodedFirst_of_places (bound : ∀ place ∈ (placed packetIdx payloads).map Prod.fst,
    place < packetIdx + (payloads.filter (Decodes ·)).length) : DecodedFirst payloads := by
  induction payloads generalizing packetIdx with
  | nil => exact .nil
  | cons payload rest ih =>
    by_cases decodes : Decodes payload
    · refine List.pairwise_cons.mpr ⟨fun _ _ _ => decodes, @ih (packetIdx + 1) ?_⟩
      intro place member
      rw [List.filter_cons_of_pos (by simpa using decodes), List.length_cons] at bound
      have within := bound place (by
        rw [placed, if_pos decodes]
        exact List.mem_cons_of_mem _ member)
      omega
    · rw [placed, if_neg decodes, List.filter_cons_of_neg (by simpa using decodes)] at bound
      have none : ¬ ∃ later ∈ rest, Decodes later := by
        intro later
        obtain ⟨place, member, late⟩ := @exists_late_place (packetIdx + 1) rest later
        have within := bound place member
        omega
      have refused : ∀ later ∈ rest, ¬ Decodes later :=
        fun later member known => none ⟨later, member, known⟩
      refine List.pairwise_cons.mpr ⟨fun later member known => absurd known (refused later member),
        @ih (packetIdx + 1) ?_⟩
      rw [placed_eq_nil.mpr refused]
      intro place member
      contradiction

/-! ## Calls that return -/

theorem returned_passes {received : List Received} {packets : Nat} {reception : Reception}
    (running : reception.ending = none)
    (returned : (receiveLoop parser received packets packetIdx reception).ending =
      some .returned) :
    ∀ payload ∈ heard received packets, Passes (.datagram payload) := by
  intro payload member
  by_contra refused
  obtain ⟨thrown, ending⟩ :=
    @receiveLoop_thrown parser received packets packetIdx reception running payload member refused
  rw [returned] at ending
  cases ending

/-- A call returns once it has heard a datagram in each of its turns and let it pass. -/
theorem receiveLoop_returned {received : List Received} {packets : Nat} {reception : Reception}
    (running : reception.ending = none) (all : (heard received packets).length = packets)
    (passes : ∀ payload ∈ heard received packets, Passes (.datagram payload)) :
    (receiveLoop parser received packets packetIdx reception).ending = some .returned := by
  induction packets generalizing received packetIdx reception with
  | zero => simp [receiveLoop]
  | succ packets ih =>
    cases received with
    | nil => contradiction
    | cons first rest =>
      cases first with
      | failed => contradiction
      | datagram payload =>
        rw [heard] at all passes
        have goes : (processPacket parser packetIdx payload reception).ending = none :=
          (processPacket_passing (passes payload List.mem_cons_self)).2.2.trans running
        simp only [receiveLoop, goes, Option.isSome_none, Bool.false_eq_true, if_false]
        exact ih goes (Nat.succ.inj all) fun other member =>
          passes other (List.mem_cons_of_mem _ member)

/-- What a call that returned has made of the buffer. -/
theorem getSamples_returned (source : UdpSource) {numberOfSamples : Nat}
    {received : List Received} {samples : SampleBuffer}
    (returned : (source.getSamples numberOfSamples received samples).ending = some .returned) :
    (source.getSamples numberOfSamples received samples).samples =
        (placed 0 (heard received (numberOfSamples / samplesPerPacket + 1))).foldl
          (place source.parser) samples ∧
      (source.getSamples numberOfSamples received samples).totalSamplesReceived =
        (accepted numberOfSamples received).length * samplesPerPacket := by
  have passes := @returned_passes source.parser 0 received _
    ⟨source.buf, samples, 0, none⟩ rfl returned
  obtain ⟨placed, total, -⟩ := receiveLoop_samples received _ 0
    ⟨source.buf, samples, 0, none⟩ rfl passes
  refine ⟨placed, total.trans ?_⟩
  rw [Nat.zero_add, accepted]

theorem gapless_of_decodedFirst (source : UdpSource) {numberOfSamples : Nat}
    {received : List Received} {cells : Nat → Sample}
    (returned : (source.getSamples numberOfSamples received ⟨cells, []⟩).ending = some .returned)
    (first : DecodedFirst (heard received (numberOfSamples / samplesPerPacket + 1))) :
    Gapless source.parser (accepted numberOfSamples received)
      (source.getSamples numberOfSamples received ⟨cells, []⟩).samples
      (source.getSamples numberOfSamples received ⟨cells, []⟩).totalSamplesReceived := by
  obtain ⟨samples, total⟩ := getSamples_returned source returned
  rw [first.placed] at samples
  have count : (payloadsOf (accepted numberOfSamples received)).length =
      (accepted numberOfSamples received).length := by simp [payloadsOf]
  constructor
  · have blocks := @parseBlocks_samples source.parser
      (payloadsOf (accepted numberOfSamples received)) 0 ⟨cells, []⟩
    simp only [Nat.zero_mul, Nat.zero_add] at blocks
    rw [samples, total, ← count]
    exact blocks
  · intro index written
    rw [samples, parseBlocks_written, Nat.zero_add] at written
    rcases written with earlier | ⟨-, block⟩
    · contradiction
    · rw [total, ← count]
      exact (Nat.div_lt_iff_lt_mul samplesPerPacket_pos).mp block

theorem decodedFirst_of_gapless (source : UdpSource) {numberOfSamples : Nat}
    {received : List Received} {cells : Nat → Sample}
    (returned : (source.getSamples numberOfSamples received ⟨cells, []⟩).ending = some .returned)
    (gapless : Gapless source.parser (accepted numberOfSamples received)
      (source.getSamples numberOfSamples received ⟨cells, []⟩).samples
      (source.getSamples numberOfSamples received ⟨cells, []⟩).totalSamplesReceived) :
    DecodedFirst (heard received (numberOfSamples / samplesPerPacket + 1)) := by
  obtain ⟨samples, total⟩ := getSamples_returned source returned
  refine @decodedFirst_of_places 0 _ fun place member => ?_
  -- The first sample of a block tells where the block lies.
  have written := gapless.written (place * samplesPerPacket) (by
    rw [samples, foldl_place_written, Nat.mul_div_cancel _ samplesPerPacket_pos]
    exact .inr member)
  rw [total] at written
  rw [Nat.zero_add]
  exact Nat.lt_of_mul_lt_mul_right written

/-- A call that returns has its samples without gaps exactly when no datagram that it
skips is received before one that it decodes. -/
theorem getSamples_gapless_iff (source : UdpSource) (numberOfSamples : Nat)
    (received : List Received) (cells : Nat → Sample)
    (returned : (source.getSamples numberOfSamples received ⟨cells, []⟩).ending =
      some .returned) :
    Gapless source.parser (accepted numberOfSamples received)
        (source.getSamples numberOfSamples received ⟨cells, []⟩).samples
        (source.getSamples numberOfSamples received ⟨cells, []⟩).totalSamplesReceived ↔
      DecodedFirst (heard received (numberOfSamples / samplesPerPacket + 1)) :=
  ⟨decodedFirst_of_gapless source returned, gapless_of_decodedFirst source returned⟩

/-- Two data packets, and behind them metadata and a datagram without a header. -/
def dataThenOthers : List (List UInt8) :=
  [List.replicate 1472 0, List.replicate 1472 1, 0x50 :: List.replicate 1471 0, []]

theorem data_then_others_gapless :
    Gapless .unit (accepted 1098 (dataThenOthers.map .datagram))
      (UdpSource.getSamples ⟨.unit, fun _ => 0⟩ 1098 (dataThenOthers.map .datagram)
        ⟨fun _ => ⟨0, 0⟩, []⟩).samples
      (UdpSource.getSamples ⟨.unit, fun _ => 0⟩ 1098 (dataThenOthers.map .datagram)
        ⟨fun _ => ⟨0, 0⟩, []⟩).totalSamplesReceived := by
  refine (getSamples_gapless_iff ⟨.unit, fun _ => 0⟩ 1098 (dataThenOthers.map .datagram)
    _ (receiveLoop_returned rfl rfl ?_)).mpr ?_
  · intro payload member full
    rw [heard_datagrams] at member
    have sent := List.mem_of_mem_take member
    simp only [dataThenOthers, List.mem_cons, List.not_mem_nil, or_false] at sent
    rcases sent with rfl | rfl | rfl | rfl
    · exact ⟨.data, by decide⟩
    · exact ⟨.data, by decide⟩
    · exact ⟨.metadata, by decide⟩
    · exact absurd full (by decide)
  · have full (byte : UInt8) : packetSize ≤ (List.replicate 1472 byte).length :=
      Nat.le_of_eq List.length_replicate.symm
    have empty : ¬ Decodes [] := fun decodes => absurd decodes.1 (by decide)
    exact List.pairwise_cons.mpr ⟨fun _ _ _ => ⟨full 0, by decide⟩,
      List.pairwise_cons.mpr ⟨fun _ _ _ => ⟨full 1, by decide⟩,
        List.pairwise_pair.mpr fun decodes => absurd decodes empty⟩⟩

theorem short_then_data_returned : (UdpSource.getSamples ⟨.unit, fun _ => 0⟩ 366
    [.datagram [], .datagram (List.replicate 1472 0)] ⟨fun _ => ⟨0, 0⟩, []⟩).ending =
      some .returned := by
  refine receiveLoop_returned rfl rfl fun payload member full => ?_
  rcases List.mem_cons.mp member with rfl | second
  · exact absurd full (by decide)
  · obtain rfl := List.mem_singleton.mp second
    exact ⟨.data, by decide⟩

/-- A short datagram in front of a data packet: the call counts 366 samples, and they
lie behind the first 366. -/
theorem skipped_datagram_leaves_gap :
    (UdpSource.getSamples ⟨.unit, fun _ => 0⟩ 366
        [.datagram [], .datagram (List.replicate 1472 0)] ⟨fun _ => ⟨0, 0⟩, []⟩).ending =
      some .returned ∧
    ¬ Gapless .unit (accepted 366 [.datagram [], .datagram (List.replicate 1472 0)])
      (UdpSource.getSamples ⟨.unit, fun _ => 0⟩ 366
        [.datagram [], .datagram (List.replicate 1472 0)] ⟨fun _ => ⟨0, 0⟩, []⟩).samples
      (UdpSource.getSamples ⟨.unit, fun _ => 0⟩ 366
        [.datagram [], .datagram (List.replicate 1472 0)]
          ⟨fun _ => ⟨0, 0⟩, []⟩).totalSamplesReceived := by
  refine ⟨short_then_data_returned, fun gapless => ?_⟩
  have first := decodedFirst_of_gapless ⟨.unit, fun _ => 0⟩ short_then_data_returned gapless
  have full : Decodes (List.replicate 1472 0) := by
    refine ⟨?_, by decide⟩
    rw [List.length_replicate, packetSize]
  have short := (List.pairwise_cons.mp first).1 _ List.mem_cons_self full
  exact absurd short.1 (by decide)

end JerryDriver.UdpSource
