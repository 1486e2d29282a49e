import JerryDriver.Udp.Contiguity

/-! Calls of `getSamples` one after the other on one source. Each call takes up the stream
of datagrams where the one before it left off and keeps what is in the object's buffer; what
it received is in the blocks that it assigned in the caller's buffer. -/
namespace JerryDriver.UdpSource
open ByteMemory Definitions HrzrParser

/-- A call, and what its caller's buffer holds before it. -/
structure Request where
  numberOfSamples : Nat
  cells : Nat → Sample

def Request.packets (request : Request) : Nat := request.numberOfSamples / samplesPerPacket + 1

/-- The calls, until one of them does not return. -/
def receiveCalls (source : UdpSource) : List Request → List Received → List (Request × Reception)
  | [], _ => []
  | request :: rest, received =>
    let reception := source.getSamples request.numberOfSamples received ⟨request.cells, []⟩
    match reception.ending with
    | some .returned =>
      (request, reception) :: receiveCalls { source with buf := reception.buf } rest
        (received.drop request.packets)
    | _ => [(request, reception)]

def packetsOf (requests : List Request) : Nat := (requests.map Request.packets).sum

/-- The blocks that a call assigned, from first to last. -/
def assigned (call : Request × Reception) : List (List Sample) :=
  ((List.range call.1.packets).filter fun packetIdx =>
    packetIdx * samplesPerPacket ∈ call.2.samples.written).map call.2.samples.block

def datagrams : List Received → List (List UInt8)
  | [] => []
  | .failed :: rest => datagrams rest
  | .datagram payload :: rest => payload :: datagrams rest

/-- The blocks of a stretch of the stream, decoded each by itself. -/
def decodedBlocks (parser : HrzrParser) (received : List Received) : List (List Sample) :=
  ((datagrams received).filter (Decodes ·)).map fun payload =>
    (List.range samplesPerPacket).map (decoded parser (payloadAt (ofBytes payload) 0))

variable {parser : HrzrParser} {received : List Received} {packets packetIdx : Nat}
  {reception : Reception} {cells : Nat → Sample}

theorem datagrams_append (received others : List Received) :
    datagrams (received ++ others) = datagrams received ++ datagrams others := by
  induction received with
  | nil => rfl
  | cons first rest ih =>
    cases first with
    | failed => exact ih
    | datagram payload => exact congrArg (payload :: ·) ih

theorem decodedBlocks_append (received others : List Received) :
    decodedBlocks parser (received ++ others) =
      decodedBlocks parser received ++ decodedBlocks parser others := by
  simp only [decodedBlocks, datagrams_append, List.filter_append, List.map_append]

/-! ## One call -/

/-- A loop returns exactly if it takes a datagram that passes in each of its turns. -/
theorem receiveLoop_returned_iff (running : reception.ending = none) :
    (receiveLoop parser received packets packetIdx reception).ending = some .returned ↔
      packets ≤ received.length ∧ ∀ each ∈ received.take packets, Passes each := by
  induction packets generalizing received packetIdx reception with
  | zero => simp [receiveLoop]
  | succ packets ih =>
    cases received with
    | nil => simp [receiveLoop, running]
    | cons first rest =>
      rw [List.take_succ_cons, List.forall_mem_cons, List.length_cons, Nat.succ_le_succ_iff]
      cases first with
      | failed => simp [receiveLoop, Passes]
      | datagram payload =>
        by_cases passes : Passes (.datagram payload)
        · have goes : (processPacket parser packetIdx payload reception).ending = none :=
            (processPacket_passing passes).2.2.trans running
          simp only [receiveLoop, goes, Option.isSome_none, Bool.false_eq_true, if_false,
            passes, true_and]
          exact ih goes
        · obtain ⟨thrown, ending⟩ := @processPacket_thrown parser packetIdx payload reception passes
          simp [receiveLoop, ending, passes]

theorem heard_eq_datagrams (enough : packets ≤ received.length)
    (passes : ∀ each ∈ received.take packets, Passes each) :
    heard received packets = datagrams (received.take packets) ∧
      (heard received packets).length = packets := by
  induction packets generalizing received with
  | zero =>
    rw [heard_zero, List.take_zero]
    exact ⟨rfl, rfl⟩
  | succ packets ih =>
    cases received with
    | nil => contradiction
    | cons first rest =>
      obtain ⟨now, later⟩ := List.forall_mem_cons.mp passes
      cases first with
      | failed => exact absurd now id
      | datagram payload =>
        obtain ⟨taken, all⟩ := ih (Nat.le_of_succ_le_succ enough) later
        exact ⟨congrArg (payload :: ·) taken, congrArg Nat.succ all⟩

theorem mem_placed_iff {payloads : List (List UInt8)} {block : Nat} :
    block ∈ (placed packetIdx payloads).map Prod.fst ↔
      ∃ i payload, payloads[i]? = some payload ∧ Decodes payload ∧ block = packetIdx + i := by
  induction payloads generalizing packetIdx with
  | nil => simp [placed]
  | cons first rest ih =>
    have split : (∃ i payload, (first :: rest)[i]? = some payload ∧ Decodes payload ∧
          block = packetIdx + i) ↔ (Decodes first ∧ block = packetIdx) ∨
        ∃ i payload, rest[i]? = some payload ∧ Decodes payload ∧ block = packetIdx + 1 + i := by
      constructor
      · rintro ⟨i, payload, found, decodes, here⟩
        cases i with
        | zero =>
          cases Option.some.inj found
          exact .inl ⟨decodes, here⟩
        | succ i => exact .inr ⟨i, payload, by simpa using found, decodes, by omega⟩
      · rintro (⟨decodes, here⟩ | ⟨i, payload, found, decodes, here⟩)
        · exact ⟨0, first, rfl, decodes, here⟩
        · exact ⟨i + 1, payload, by simpa using found, decodes, by omega⟩
    rw [split, ← ih]
    by_cases decodes : Decodes first
    · simp [placed_decodes decodes, decodes]
    · simp [placed_skips decodes, decodes]

/-- What is selected from a list by position and by value. -/
theorem filter_map_range {A B : Type} {l : List A} {P : A → Prop} [DecidablePred P]
    {Q : Nat → Prop} [DecidablePred Q] {f : A → B} {g : Nat → B}
    (marks : ∀ i a, l[i]? = some a → (P a ↔ Q i))
    (images : ∀ i a, l[i]? = some a → P a → f a = g i) :
    (l.filter (P ·)).map f = ((List.range l.length).filter (Q ·)).map g := by
  induction l generalizing Q g with
  | nil => rfl
  | cons first rest ih =>
    have later := @ih (fun i => Q (i + 1)) _ (fun i => g (i + 1))
      (fun i a found => marks (i + 1) a (by simpa using found))
      (fun i a found => images (i + 1) a (by simpa using found))
    rw [List.length_cons, List.range_succ_eq_map, List.filter_cons, List.filter_cons,
      List.filter_map]
    have here := marks 0 first rfl
    by_cases selected : P first
    · simp only [selected, here.mp selected, decide_true, if_true, List.map_cons, later,
        images 0 first rfl selected, List.map_map]
      rfl
    · have passed : ¬ Q 0 := fun chosen => selected (here.mpr chosen)
      simp only [selected, passed, decide_false, Bool.false_eq_true, if_false, later,
        List.map_map]
      rfl

/-- What a call that returned assigned are the blocks of the datagrams it took. -/
theorem getSamples_assigned (source : UdpSource) (request : Request)
    (returned : (source.getSamples request.numberOfSamples received
      ⟨request.cells, []⟩).ending = some .returned) :
    assigned (request, source.getSamples request.numberOfSamples received ⟨request.cells, []⟩) =
        decodedBlocks source.parser (received.take request.packets) ∧
      (source.getSamples request.numberOfSamples received
          ⟨request.cells, []⟩).totalSamplesReceived =
        (decodedBlocks source.parser (received.take request.packets)).length *
          samplesPerPacket := by
  obtain ⟨enough, passes⟩ := (receiveLoop_returned_iff rfl).mp returned
  obtain ⟨samples, total⟩ := getSamples_returned source returned
  obtain ⟨taken, all⟩ := heard_eq_datagrams enough passes
  unfold assigned decodedBlocks Request.packets
  simp only [accepted] at total
  generalize request.numberOfSamples / samplesPerPacket + 1 = packets at *
  constructor
  · rw [samples, ← taken]
    generalize heard received packets = payloads at all
    subst all
    refine (filter_map_range (fun i payload found => ?_) fun i payload found decodes => ?_).symm
    · rw [foldl_place_written, Nat.mul_div_cancel _ samplesPerPacket_pos, mem_placed_iff]
      simp only [Nat.zero_add]
      constructor
      · exact fun decodes => .inr ⟨i, payload, found, decodes, rfl⟩
      · rintro (earlier | ⟨_, other, same, decodes, rfl⟩)
        · contradiction
        · cases Option.some.inj (found.symm.trans same)
          exact decodes
    · refine List.map_congr_left fun position member => ?_
      obtain ⟨block, column⟩ := cell_index i (List.mem_range.mp member)
      rw [foldl_place_data _ found decodes (block.trans (Nat.zero_add i).symm), column]
  · rw [total, taken, List.length_map]

/-! ## Calls in a row -/

def Returned (call : Request × Reception) : Prop := call.2.ending = some .returned

/-- So many receptions are there, and the call lets every one pass. -/
def Carried (packets : Nat) (received : List Received) : Prop :=
  packets ≤ received.length ∧ ∀ each ∈ received.take packets, Passes each

theorem carried_add (packets more : Nat) (received : List Received) :
    Carried (packets + more) received ↔
      Carried packets received ∧ Carried more (received.drop packets) := by
  simp only [Carried, List.take_add, List.forall_mem_append, List.length_drop]
  constructor
  · rintro ⟨enough, now, later⟩
    exact ⟨⟨by omega, now⟩, by omega, later⟩
  · rintro ⟨⟨enough, now⟩, more, later⟩
    exact ⟨by omega, now, later⟩

theorem receiveCalls_cons (source : UdpSource) (request : Request) (rest : List Request)
    (received : List Received) :
    let reception := source.getSamples request.numberOfSamples received ⟨request.cells, []⟩
    (∃ buf, reception.ending = some .returned ∧
      receiveCalls source (request :: rest) received =
        (request, reception) :: receiveCalls ⟨source.parser, buf⟩ rest
          (received.drop request.packets)) ∨
    (reception.ending ≠ some .returned ∧
      receiveCalls source (request :: rest) received = [(request, reception)]) := by
  intro reception
  rw [receiveCalls]
  split
  · rename_i returned
    exact .inl ⟨reception.buf, returned, rfl⟩
  · rename_i other
    exact .inr ⟨other, rfl⟩

theorem receiveCalls_returned_iff (source : UdpSource) (requests : List Request)
    (received : List Received) :
    (∀ call ∈ receiveCalls source requests received, Returned call) ↔
      Carried (packetsOf requests) received := by
  induction requests generalizing source received with
  | nil => simp [receiveCalls, Carried, packetsOf]
  | cons request rest ih =>
    have one : (source.getSamples request.numberOfSamples received
        ⟨request.cells, []⟩).ending = some .returned ↔ Carried request.packets received :=
      receiveLoop_returned_iff rfl
    have sum : packetsOf (request :: rest) = request.packets + packetsOf rest := by
      rw [packetsOf, List.map_cons, List.sum_cons, packetsOf]
    rw [sum, carried_add, ← one]
    obtain ⟨buf, returned, calls⟩ | ⟨left, calls⟩ := receiveCalls_cons source request rest received
    · rw [calls, List.forall_mem_cons, ih]
      exact Iff.rfl
    · rw [calls, List.forall_mem_singleton]
      exact ⟨fun returned => absurd returned left, fun both => absurd both.1 left⟩

/-- Calls that follow each other return if every datagram they ask for is there and passes.
Together they have then received the stream's blocks, each of them once and in its order,
however the stream was divided among the calls. -/
theorem calls_in_order (source : UdpSource) (requests : List Request) (received : List Received) :
    let calls := receiveCalls source requests received
    let blocks := decodedBlocks source.parser (received.take (packetsOf requests))
    ((∀ call ∈ calls, Returned call) ↔ Carried (packetsOf requests) received) ∧
      ((∀ call ∈ calls, Returned call) → calls.flatMap assigned = blocks ∧
        (calls.map fun call => call.2.totalSamplesReceived).sum =
          blocks.length * samplesPerPacket) := by
  refine ⟨receiveCalls_returned_iff source requests received, ?_⟩
  induction requests generalizing source received with
  | nil =>
    intro _
    exact ⟨rfl, (Nat.zero_mul _).symm⟩
  | cons request rest ih =>
    intro all
    obtain ⟨buf, returned, calls⟩ | ⟨left, calls⟩ := receiveCalls_cons source request rest received
    · rw [calls] at all
      obtain ⟨-, later⟩ := List.forall_mem_cons.mp all
      obtain ⟨blocks, total⟩ := ih ⟨source.parser, buf⟩ _ later
      obtain ⟨here, counted⟩ := getSamples_assigned source request returned
      have parts : received.take (packetsOf (request :: rest)) =
          received.take request.packets ++
            (received.drop request.packets).take (packetsOf rest) := by
        rw [packetsOf, List.map_cons, List.sum_cons, ← packetsOf, List.take_add]
      rw [calls, parts, decodedBlocks_append, List.flatMap_cons, List.map_cons, List.sum_cons,
        List.length_append, Nat.add_mul]
      exact ⟨congrArg₂ (· ++ ·) here blocks, congrArg₂ (· + ·) counted total⟩
    · rw [calls] at all
      exact absurd (all _ List.mem_cons_self) left

end JerryDriver.UdpSource
