import JerryDriver.Dpdk.Source

/-! Which frames reach the callers of `getSamples`. `RXThread` and `getSamples` poll the
same port queue and only the caller's own polls are turned into samples, so both the
delivery of accepted frames and the purity of what is delivered depend on who polled. -/
namespace JerryDriver.DpdkSource
open Transition Definitions

def arriving (numStream : Nat) : Action → List Mbuf
  | .arrive other m => if other = numStream then [m] else []
  | .rxThread _ _ | .getSamples _ _ _ _ => []

/-- The frames that a step's poll hands out at the stream's port, with its poller. -/
def handed (numStream : Nat) (source : DpdkSource) : Action → List (Poller × Mbuf)
  | .arrive _ _ => []
  | .rxThread other nbRx =>
    if other = numStream then
      ((source.streams numStream).waiting.take nbRx).map (Poller.rxThread, ·)
    else []
  | .getSamples other _ nbRx _ =>
    if other = numStream then
      ((source.streams numStream).waiting.take nbRx).map (Poller.getSamples, ·)
    else []

def decodedBlocks (parser : HrzrParser) (polled : List (Poller × Mbuf)) : List Block :=
  (polled.filter fun entry => entry.1 = .getSamples).map fun entry => decodedBlock parser entry.2

/-- How a step extends a stream's history: arrivals queue up behind the frames still
waiting, polls take from the front, and a caller's poll becomes its blocks. -/
structure Follows (parser : HrzrParser) (before now : Stream) (arriving : List Mbuf)
    (handed : List (Poller × Mbuf)) : Prop where
  arrived : now.arrived = before.arrived ++ arriving
  polled : now.polled = before.polled ++ handed
  waiting : handed.map Prod.snd ++ now.waiting = before.waiting ++ arriving
  blocks : now.blocks = before.blocks ++ decodedBlocks parser handed

theorem Follows.idle (parser : HrzrParser) (stream : Stream) :
    Follows parser stream stream [] [] where
  arrived := (List.append_nil _).symm
  polled := (List.append_nil _).symm
  waiting := (List.append_nil _).symm
  blocks := (List.append_nil _).symm

/-- A poll takes the frames that it hands out from the front. -/
theorem Follows.of_poll {parser : HrzrParser} {before now : Stream} (poller : Poller) (nbRx : Nat)
    (arrived : now.arrived = before.arrived)
    (polled : now.polled = (poll poller nbRx before).polled)
    (waiting : now.waiting = (poll poller nbRx before).waiting)
    (blocks : now.blocks =
      before.blocks ++ decodedBlocks parser ((before.waiting.take nbRx).map (poller, ·))) :
    Follows parser before now [] ((before.waiting.take nbRx).map (poller, ·)) where
  arrived := by rw [arrived, List.append_nil]
  polled := polled
  waiting := by simp [waiting, poll, Function.comp_def]
  blocks := blocks

variable {setup : Setup} {source after : DpdkSource} {action : Action} {actions : List Action}
  {numStream : Nat}

private theorem decodedBlocks_rxThread (parser : HrzrParser) (frames : List Mbuf) :
    decodedBlocks parser (frames.map (Poller.rxThread, ·)) = [] := by
  simp [decodedBlocks]

private theorem decodedBlocks_getSamples (parser : HrzrParser) (frames : List Mbuf) :
    decodedBlocks parser (frames.map (Poller.getSamples, ·)) =
      frames.map (decodedBlock parser) := by
  simp [decodedBlocks, List.filter_map, Function.comp_def]

theorem perform_follows (performed : perform setup source action = some after)
    (numStream : Nat) :
    Follows setup.parser (source.streams numStream) (after.streams numStream)
      (arriving numStream action) (handed numStream source action) := by
  cases action with
  | arrive other m =>
    cases performed
    by_cases here : other = numStream
    · subst here
      simp only [arriving, handed, if_pos, Function.update_self]
      exact ⟨rfl, (List.append_nil _).symm, rfl, (List.append_nil _).symm⟩
    · simp only [arriving, handed, if_neg here, Function.update_of_ne (Ne.symm here)]
      exact .idle _ _
  | rxThread other nbRx =>
    simp only [perform] at performed
    split at performed
    · cases performed
      by_cases here : other = numStream
      · subst here
        simp only [arriving, handed, if_pos, Function.update_self]
        refine .of_poll .rxThread nbRx rfl rfl rfl ?_
        rw [decodedBlocks_rxThread, List.append_nil]
        rfl
      · simp only [arriving, handed, if_neg here, Function.update_of_ne (Ne.symm here)]
        exact .idle _ _
    · contradiction
  | getSamples other numberOfSamples nbRx samples =>
    simp only [perform] at performed
    split at performed
    · cases performed
      by_cases here : other = numStream
      · subst here
        simp only [arriving, handed, if_pos, Function.update_self]
        refine .of_poll .getSamples nbRx rfl rfl rfl ?_
        simp only [Stream.blocks, List.flatMap_append, List.flatMap_singleton,
          getSamples_blocks, decodedBlocks_getSamples]
      · simp only [arriving, handed, if_neg here, Function.update_of_ne (Ne.symm here)]
        exact .idle _ _
    · contradiction

theorem step_follows (taken : step setup source action = some after) (numStream : Nat) :
    Follows setup.parser (source.streams numStream) (after.streams numStream)
      (arriving numStream action) (handed numStream source action) := by
  unfold step at taken
  split at taken
  · exact perform_follows taken numStream
  · contradiction

theorem step_rxThread (source : DpdkSource) {nbRx : Nat} (running : source.terminated = none)
    (exists_ : numStream < setup.numStreams)
    (size : nbRx ≤ (source.streams numStream).waiting.length ∧ nbRx ≤ 32)
    (decided : ∀ m ∈ (source.streams numStream).waiting.take nbRx,
      ∃ keep, accepts (setup.udpRxPort numStream) m = .ok keep) :
    ∃ after, step setup source (.rxThread numStream nbRx) = some after ∧
      after.terminated = none ∧
      (after.streams numStream).calls = (source.streams numStream).calls := by
  refine ⟨_, (if_pos ⟨running, exists_⟩).trans (dif_pos size), ?_, ?_⟩
  · exact RxThread.foldl_running rfl decided
  · simp only [Function.update_self, poll]

/-- A call never ends the process and returns whole packets, as many as it polled. -/
theorem step_getSamples (source : DpdkSource) {numberOfSamples nbRx : Nat}
    (samples : SampleBuffer) (running : source.terminated = none)
    (exists_ : numStream < setup.numStreams)
    (size : nbRx ≤ (source.streams numStream).waiting.length ∧
      nbRx ≤ packetsToDequeue numberOfSamples) :
    ∃ after, step setup source (.getSamples numStream numberOfSamples nbRx samples) = some after ∧
      after.terminated = none ∧ (after.streams numStream).calls.map Call.returned =
        (source.streams numStream).calls.map Call.returned ++ [nbRx * samplesPerPacket] := by
  refine ⟨_, (if_pos ⟨running, exists_⟩).trans (if_pos size), running, ?_⟩
  simp only [Function.update_self, List.map_append, List.map_singleton, getSamples_total,
    List.length_take_of_le size.1]

/-- Every arrived frame was polled once, in arrival order, or still waits. -/
theorem run_arrived (finished : run (step setup) start actions = some source) :
    (source.streams numStream).arrived =
      (source.streams numStream).polled.map Prod.snd ++ (source.streams numStream).waiting := by
  refine run_invariant (P := fun source => (source.streams numStream).arrived =
    (source.streams numStream).polled.map Prod.snd ++ (source.streams numStream).waiting)
    ?_ finished rfl
  intro before action now held taken
  have follows := step_follows taken numStream
  rw [follows.arrived, follows.polled, held, List.append_assoc, ← follows.waiting,
    List.map_append, List.append_assoc]

/-- What callers hold is decoded from the frames that they polled themselves. -/
theorem run_blocks (finished : run (step setup) start actions = some source) :
    (source.streams numStream).blocks =
      decodedBlocks setup.parser (source.streams numStream).polled := by
  refine run_invariant (P := fun source => (source.streams numStream).blocks =
    decodedBlocks setup.parser (source.streams numStream).polled) ?_ finished rfl
  intro before action now held taken
  have follows := step_follows taken numStream
  rw [follows.blocks, follows.polled, held, decodedBlocks, decodedBlocks, decodedBlocks,
    List.filter_append, List.map_append]

theorem run_polled (finished : run (step setup) start actions = some source)
    (entry : Poller × Mbuf) : entry ∈ (source.streams numStream).polled ↔
      ∃ visit ∈ visits (step setup) start actions, entry ∈ handed numStream visit.1 visit.2 := by
  have history := run_observation (fun taken => (step_follows taken numStream).polled) finished
  rw [history]
  simp only [start, Stream.start, List.nil_append, List.mem_flatMap]

/-- Frames and blocks correspond one to one: for each accepted frame that arrived, in
arrival order, the callers hold the block of that frame. -/
def Delivered (setup : Setup) (source : DpdkSource) (numStream : Nat) : Prop :=
  ((source.streams numStream).blocks.filter
    fun block => Accepted (setup.udpRxPort numStream) block.frame) =
  ((source.streams numStream).arrived.filter
    fun m => Accepted (setup.udpRxPort numStream) m).map (decodedBlock setup.parser)

private theorem map_filter_eq_iff {α β : Type} (f : α → β) (p : α → Bool) (l : List α) :
    (l.filter p).map f = l.map f ↔ ∀ a ∈ l, p a = true := by
  constructor
  · intro same
    have count := congrArg List.length same
    rw [List.length_map, List.length_map] at count
    exact List.length_filter_eq_length_iff.mp count
  · intro all
    rw [List.filter_eq_self.mpr all]

theorem delivered_iff_polled (finished : run (step setup) start actions = some source)
    (drained : (source.streams numStream).waiting = []) :
    Delivered setup source numStream ↔ ∀ entry ∈ (source.streams numStream).polled,
      Accepted (setup.udpRxPort numStream) entry.2 → entry.1 = .getSamples := by
  rw [Delivered, run_blocks finished, run_arrived finished, drained, List.append_nil,
    decodedBlocks, List.filter_map, List.filter_map, List.map_map, List.filter_comm]
  refine (map_filter_eq_iff _ _ _).trans ?_
  simp only [List.mem_filter, Function.comp_apply, decide_eq_true_eq, and_imp]
  rfl

/-- In a reachable state with no frame left at the port, the callers hold exactly one
block for each accepted frame, in arrival order, if and only if no poll of the receive
thread took an accepted frame. Whether a further call returned 0 makes no difference. -/
theorem delivered_iff (finished : run (step setup) start actions = some source)
    (drained : (source.streams numStream).waiting = []) :
    Delivered setup source numStream ↔
      ∀ visit ∈ visits (step setup) start actions, ∀ m,
        (Poller.rxThread, m) ∈ handed numStream visit.1 visit.2 →
          ¬ Accepted (setup.udpRxPort numStream) m := by
  rw [delivered_iff_polled finished drained]
  constructor
  · intro delivered visit visited m taken accepted
    have polled := (run_polled finished _).mpr ⟨visit, visited, taken⟩
    have poller : Poller.rxThread = .getSamples := delivered _ polled accepted
    cases poller
  · rintro spared ⟨poller, m⟩ polled accepted
    obtain ⟨visit, visited, taken⟩ := (run_polled finished _).mp polled
    cases poller with
    | rxThread => exact absurd accepted (spared visit visited m taken)
    | getSamples => rfl

def oneStream : Setup := ⟨.unit, 1, fun _ => 5000⟩

def twoStreams : Setup := ⟨.unit, 2, fun n => 5000 + n.toUInt16⟩

def clearedSamples : SampleBuffer := ⟨fun _ => ⟨0, 0⟩, []⟩

/-- A full data packet of zeros, sent to the stream's port. -/
def dataFrame : Mbuf := .ofUdp 5000 (List.replicate 1472 0)

def metadataFrame : Mbuf := .ofUdp 5000 (0x50 :: List.replicate 1471 0)

theorem dataFrame_accepted : Accepted 5000 dataFrame := by
  refine (Mbuf.carries_ofUdp 5000 _).accepted_iff.mpr ⟨List.length_replicate, .inl ?_⟩
  decide

theorem metadataFrame_refused : ¬ Accepted 5000 metadataFrame := by
  intro accepted
  have type := ((Mbuf.carries_ofUdp 5000 _).accepted_iff.mp accepted).2
  exact absurd type (by decide)

/-- A datagram without contents, sent to the stream's port. -/
def emptyFrame : Mbuf := .ofUdp 5000 []

theorem emptyFrame_refused : ¬ Accepted 5000 emptyFrame := by
  intro accepted
  have full := ((Mbuf.carries_ofUdp 5000 _).accepted_iff.mp accepted).1
  exact absurd full (by decide)

/-- The receive thread comes first to an empty datagram and a caller to the data behind it. -/
def takingTurns : List Action :=
  [.arrive 0 emptyFrame, .arrive 0 dataFrame, .rxThread 0 1, .getSamples 0 366 1 clearedSamples,
    .rxThread 0 0]

theorem run_takingTurns : ∃ source, run (step oneStream) start takingTurns = some source ∧
    (source.streams 0).waiting = [] ∧
    (source.streams 0).polled = [(.rxThread, emptyFrame), (.getSamples, dataFrame)] :=
  ⟨_, rfl, rfl, rfl⟩

theorem taking_turns_delivered :
    ∃ source, run (step oneStream) start takingTurns = some source ∧
      Delivered oneStream source 0 := by
  obtain ⟨source, finished, drained, polled⟩ := run_takingTurns
  refine ⟨source, finished, (delivered_iff finished drained).mpr ?_⟩
  intro visit visited m taken
  have entry := (run_polled finished (.rxThread, m)).mpr ⟨visit, visited, taken⟩
  rw [polled] at entry
  rcases List.mem_cons.mp entry with same | other
  · rw [(Prod.mk.inj same).2]
    exact emptyFrame_refused
  · cases (Prod.mk.inj (List.mem_singleton.mp other)).1

/-- The receive thread polls a frame and puts it in the ring; there it stays. -/
theorem run_polled_by_thread {m : Mbuf} (accepted : Accepted 5000 m) :
    ∃ source, run (step oneStream) start [.arrive 0 m, .rxThread 0 1,
        .getSamples 0 366 0 clearedSamples] = some source ∧
      (source.streams 0).waiting = [] ∧ (source.streams 0).polled = [(.rxThread, m)] ∧
      (source.streams 0).calls.map Call.returned = [0] := by
  have one : 0 < oneStream.numStreams := Nat.zero_lt_one
  obtain ⟨port, arrives, running, stream⟩ : ∃ port, step oneStream start (.arrive 0 m) =
      some port ∧ port.terminated = none ∧
      port.streams 0 = { Stream.start with waiting := [m], arrived := [m] } := ⟨_, rfl, rfl, rfl⟩
  have decided : ∀ other ∈ (port.streams 0).waiting.take 1,
      ∃ keep, accepts (oneStream.udpRxPort 0) other = .ok keep := by
    rw [stream]
    intro other member
    rw [List.mem_singleton.mp member]
    exact ⟨true, accepted⟩
  obtain ⟨thread, polls, running, calls⟩ := step_rxThread port running one
    ⟨by rw [stream]; exact Nat.le_refl 1, by decide⟩ decided
  obtain ⟨source, called, -, returned⟩ := step_getSamples thread clearedSamples running one
    (show 0 ≤ _ ∧ 0 ≤ packetsToDequeue 366 from ⟨Nat.zero_le _, Nat.zero_le _⟩)
  have polled := step_follows polls 0
  have kept := step_follows called 0
  simp only [handed, arriving, stream, if_pos, List.take_zero, List.map_nil] at polled kept
  refine ⟨source, ?_, ?_, ?_, ?_⟩
  · exact (run_cons _).mpr ⟨port, arrives, (run_cons _).mpr ⟨thread, polls,
      (run_cons _).mpr ⟨source, called, rfl⟩⟩⟩
  · have drained : (thread.streams 0).waiting = [] := List.append_cancel_left polled.waiting
    have waiting := kept.waiting
    rwa [drained] at waiting
  · rw [kept.polled, polled.polled]
    rfl
  · rw [returned, calls, stream]
    rfl

/-- An accepted frame is lost: the receive thread polled it, and the next call of
`getSamples` returns 0. -/
theorem accepted_frame_lost :
    ∃ source, run (step oneStream) start [.arrive 0 dataFrame, .rxThread 0 1,
        .getSamples 0 366 0 clearedSamples] = some source ∧
      (source.streams 0).waiting = [] ∧
      (source.streams 0).calls.map Call.returned = [0] ∧ ¬ Delivered oneStream source 0 := by
  obtain ⟨source, finished, drained, polled, returned⟩ := run_polled_by_thread dataFrame_accepted
  refine ⟨source, finished, drained, returned, ?_⟩
  rw [delivered_iff_polled finished drained, polled]
  intro delivered
  have poller : Poller.rxThread = .getSamples :=
    delivered (.rxThread, dataFrame) (List.mem_singleton_self _) dataFrame_accepted
  cases poller

/-- Every block that callers hold is the decoded payload of an accepted frame. -/
def OnlyIqData (setup : Setup) (source : DpdkSource) (numStream : Nat) : Prop :=
  ∀ block ∈ (source.streams numStream).blocks,
    Accepted (setup.udpRxPort numStream) block.frame ∧
      block = decodedBlock setup.parser block.frame

theorem onlyIqData_iff_polled (finished : run (step setup) start actions = some source) :
    OnlyIqData setup source numStream ↔ ∀ entry ∈ (source.streams numStream).polled,
      entry.1 = .getSamples → Accepted (setup.udpRxPort numStream) entry.2 := by
  rw [OnlyIqData, run_blocks finished]
  simp only [decodedBlocks, List.mem_map, List.mem_filter, decide_eq_true_eq]
  constructor
  · intro pure_ entry polled poller
    exact (pure_ _ ⟨entry, ⟨polled, poller⟩, rfl⟩).1
  · rintro allowed _ ⟨entry, ⟨polled, poller⟩, rfl⟩
    exact ⟨allowed entry polled poller, rfl⟩

/-- In a reachable state the callers hold decoded accepted frames only, if and only if
no call of `getSamples` took a frame that fails the acceptance test. -/
theorem onlyIqData_iff (finished : run (step setup) start actions = some source) :
    OnlyIqData setup source numStream ↔
      ∀ visit ∈ visits (step setup) start actions, ∀ m,
        (Poller.getSamples, m) ∈ handed numStream visit.1 visit.2 →
          Accepted (setup.udpRxPort numStream) m := by
  rw [onlyIqData_iff_polled finished]
  constructor
  · intro allowed visit visited m taken
    exact allowed _ ((run_polled finished _).mpr ⟨visit, visited, taken⟩) rfl
  · rintro allowed ⟨poller, m⟩ polled rfl
    obtain ⟨visit, visited, taken⟩ := (run_polled finished _).mp polled
    exact allowed visit visited m taken

theorem taking_turns_onlyIqData :
    ∃ source, run (step oneStream) start takingTurns = some source ∧
      OnlyIqData oneStream source 0 := by
  obtain ⟨source, finished, -, polled⟩ := run_takingTurns
  refine ⟨source, finished, (onlyIqData_iff finished).mpr ?_⟩
  intro visit visited m taken
  have entry := (run_polled finished (.getSamples, m)).mpr ⟨visit, visited, taken⟩
  rw [polled] at entry
  rcases List.mem_cons.mp entry with same | other
  · cases (Prod.mk.inj same).1
  · rw [(Prod.mk.inj (List.mem_singleton.mp other)).2]
    exact dataFrame_accepted

theorem run_polled_by_caller (m : Mbuf) :
    ∃ source, run (step oneStream) start [.arrive 0 m, .getSamples 0 366 1 clearedSamples] =
        some source ∧ (source.streams 0).polled = [(.getSamples, m)] :=
  ⟨_, rfl, rfl⟩

/-- A metadata frame is turned into 366 samples when a caller is first to poll. -/
theorem metadata_frame_decoded :
    ∃ source, run (step oneStream) start [.arrive 0 metadataFrame,
        .getSamples 0 366 1 clearedSamples] = some source ∧
      ¬ OnlyIqData oneStream source 0 := by
  obtain ⟨source, finished, polled⟩ := run_polled_by_caller metadataFrame
  refine ⟨source, finished, ?_⟩
  rw [onlyIqData_iff_polled finished, polled]
  intro allowed
  exact metadataFrame_refused (allowed (.getSamples, metadataFrame) (List.mem_singleton_self _) rfl)

end JerryDriver.DpdkSource
