import JerryDriver.Dpdk.Isolation
import JerryDriver.Dpdk.LossDetection

/-! Runs in which iterations and calls are single steps, taken packet by packet: every such
run is one of packet steps in which each poll is followed by the packets that it handed
out, and it leaves the same behind, also where an exception ends an iteration. -/
namespace JerryDriver.PacketSteps
open Transition DpdkSource Definitions

variable {setup : Setup} {state : State} {source after : DpdkSource} {numStream : Nat}

/-- A thread's worker behind the loop over its burst. -/
def Worker.leftBy (worker : Worker) (thread : RxThread) (mbufs processed : List Mbuf) : Worker :=
  { worker with mbufs, processed, seq := thread.seq, ring := thread.ring
                freed := thread.freed, skips := thread.skips }

variable {workers : Nat → Worker} {worker : Worker} {totals : Totals}

theorem step_packet {m : Mbuf} {rest : List Mbuf} (exists_ : numStream < setup.numStreams)
    (next : worker.mbufs = m :: rest) :
    let thread := RxThread.processPacket (setup.udpRxPort numStream) (worker.thread totals) m
    step setup ⟨Function.update workers numStream worker, totals, none⟩
        (.processPacket numStream) =
      some ⟨Function.update workers numStream (worker.leftBy thread
          (if thread.escaped.isSome then m :: rest else rest) (worker.processed ++ [m])),
        thread.totals, thread.escaped⟩ := by
  refine (if_pos ⟨rfl, exists_⟩).trans ?_
  simp only [perform, Function.update_self, processPacket_cons _ _ next, Option.map_some,
    Function.update_idem]
  rfl

/-- Handled one by one, the packets of a burst leave the thread as the loop over the
burst does, and an exception ends both at the same packet. -/
theorem run_burst (exists_ : numStream < setup.numStreams) {frames : List Mbuf}
    (burst : worker.mbufs = frames) :
    let thread := frames.foldl (RxThread.processPacket (setup.udpRxPort numStream))
      (worker.thread totals)
    ∃ count mbufs processed,
      run (step setup) ⟨Function.update workers numStream worker, totals, none⟩
          (List.replicate count (.processPacket numStream)) =
        some ⟨Function.update workers numStream (worker.leftBy thread mbufs processed),
          thread.totals, thread.escaped⟩ ∧
      (thread.escaped = none → mbufs = []) := by
  induction frames generalizing worker totals with
  | nil =>
    have same : worker.leftBy (worker.thread totals) [] worker.processed = worker := by
      rw [← burst]
      rfl
    refine ⟨0, [], worker.processed, ?_, fun _ => rfl⟩
    rw [List.foldl_nil, same]
    rfl
  | cons m rest ih =>
    have taken := @step_packet setup numStream workers worker totals m rest exists_ burst
    rw [List.foldl_cons]
    generalize RxThread.processPacket (setup.udpRxPort numStream) (worker.thread totals) m = first
      at taken ⊢
    cases escaped : first.escaped with
    | some thrown =>
      have stopped : first.escaped.isSome = true := by rw [escaped, Option.isSome_some]
      rw [RxThread.foldl_escaped stopped]
      refine ⟨1, m :: rest, worker.processed ++ [m], (run_cons _).mpr ⟨_, taken, ?_⟩, ?_⟩
      · rw [if_pos stopped]
        rfl
      · rw [escaped]
        exact fun ended => absurd ended (Option.some_ne_none thrown)
    | none =>
      have same :
          (worker.leftBy first rest (worker.processed ++ [m])).thread first.totals = first := by
        rw [Worker.leftBy, Worker.thread, ← escaped]
      obtain ⟨count, mbufs, processed, reached, free⟩ :=
        @ih (worker.leftBy first rest (worker.processed ++ [m])) first.totals rfl
      rw [same] at reached free
      refine ⟨count + 1, mbufs, processed, (run_cons _).mpr ⟨_, taken, ?_⟩, free⟩
      simp only [escaped, Option.isSome_none, Bool.false_eq_true, if_false]
      exact reached

/-- A caller's worker behind the loop over its frames. -/
def Worker.returnedBy (worker : Worker) (decoding : Decoding) (callerMbufs : List Mbuf)
    (packetIdx : Nat) : Worker :=
  { worker with callerMbufs, packetIdx
                totalSamplesReceived := decoding.totalSamplesReceived
                samples := decoding.samples, freed := decoding.freed }

def Worker.decoding (worker : Worker) : Decoding :=
  ⟨worker.totalSamplesReceived, worker.samples, worker.freed⟩

theorem step_decode {m : Mbuf} {rest : List Mbuf} (exists_ : numStream < setup.numStreams)
    (next : worker.callerMbufs = m :: rest) :
    step setup ⟨Function.update workers numStream worker, totals, none⟩ (.decodePacket numStream) =
      some ⟨Function.update workers numStream (worker.returnedBy
        (decodeLoop setup.parser [m] worker.packetIdx worker.decoding) rest (worker.packetIdx + 1)),
        totals, none⟩ := by
  refine (if_pos ⟨rfl, exists_⟩).trans ?_
  simp only [perform, Function.update_self, decodePacket, next, Option.map_some, State.put,
    Function.update_idem]
  rfl

/-- Decoded one by one, the frames of a call leave its buffer as its loop does. -/
theorem run_decoding (exists_ : numStream < setup.numStreams) {frames : List Mbuf}
    (burst : worker.callerMbufs = frames) :
    ∃ packetIdx, run (step setup) ⟨Function.update workers numStream worker, totals, none⟩
        (List.replicate frames.length (.decodePacket numStream)) =
      some ⟨Function.update workers numStream (worker.returnedBy
        (decodeLoop setup.parser frames worker.packetIdx worker.decoding) [] packetIdx),
        totals, none⟩ := by
  induction frames generalizing worker with
  | nil =>
    have same : worker.returnedBy worker.decoding [] worker.packetIdx = worker := by
      rw [← burst]
      rfl
    refine ⟨worker.packetIdx, ?_⟩
    rw [decodeLoop, same]
    rfl
  | cons m rest ih =>
    have taken := @step_decode setup numStream workers worker totals m rest exists_ burst
    obtain ⟨packetIdx, reached⟩ := @ih (worker.returnedBy (decodeLoop setup.parser [m]
      worker.packetIdx worker.decoding) rest (worker.packetIdx + 1)) rfl
    exact ⟨packetIdx, (run_cons _).mpr ⟨_, taken, reached⟩⟩

/-- An iteration: the poll, and the packets that it handed out. -/
theorem run_iteration (exists_ : numStream < setup.numStreams) (burst : Burst)
    (idle : (workers numStream).mbufs = []) {thread : RxThread}
    (looped : thread = burst.val.foldl (RxThread.processPacket (setup.udpRxPort numStream))
      ((workers numStream).thread totals)) :
    ∃ steps mbufs processed, run (step setup) ⟨workers, totals, none⟩ steps =
      some ⟨Function.update workers numStream (Worker.leftBy { workers numStream with
          handedOut := (workers numStream).handedOut ++ burst.val } thread mbufs processed),
        thread.totals, thread.escaped⟩ ∧
      (thread.escaped = none → mbufs = []) := by
  have polls : step setup ⟨workers, totals, none⟩ (.rxBurst numStream burst) =
      some ⟨Function.update workers numStream { workers numStream with
        mbufs := burst.val, handedOut := (workers numStream).handedOut ++ burst.val },
        totals, none⟩ := (if_pos ⟨rfl, exists_⟩).trans (if_pos idle)
  obtain ⟨count, mbufs, processed, reached, free⟩ := @run_burst setup numStream workers
    { workers numStream with
      mbufs := burst.val, handedOut := (workers numStream).handedOut ++ burst.val }
    totals exists_ _ rfl
  rw [looped]
  exact ⟨_, mbufs, processed, (run_cons _).mpr ⟨_, polls, reached⟩, free⟩

/-- A call: its poll, and the frames that it handed out. -/
theorem run_call {numberOfSamples : Nat} {burst : List Mbuf}
    (exists_ : numStream < setup.numStreams) (samples : SampleBuffer)
    (idle : (workers numStream).callerMbufs = [])
    (size : burst.length ≤ packetsToDequeue numberOfSamples) :
    ∃ steps packetIdx, run (step setup) ⟨workers, totals, none⟩ steps =
      some ⟨Function.update workers numStream (Worker.returnedBy { workers numStream with
          handedOut := (workers numStream).handedOut ++ burst }
          (decodeLoop setup.parser burst 0 ⟨0, samples, (workers numStream).freed⟩) [] packetIdx),
        totals, none⟩ := by
  have polls : step setup ⟨workers, totals, none⟩
        (.getSamples numStream numberOfSamples burst samples) =
      some ⟨Function.update workers numStream { workers numStream with
        callerMbufs := burst, packetIdx := 0, totalSamplesReceived := 0, samples := samples
        handedOut := (workers numStream).handedOut ++ burst }, totals, none⟩ :=
    (if_pos ⟨rfl, exists_⟩).trans (if_pos ⟨idle, size⟩)
  obtain ⟨packetIdx, reached⟩ := @run_decoding setup numStream workers { workers numStream with
      callerMbufs := burst, packetIdx := 0, totalSamplesReceived := 0, samples := samples
      handedOut := (workers numStream).handedOut ++ burst } totals exists_ _ rfl
  exact ⟨_, packetIdx, (run_cons _).mpr ⟨_, polls, reached⟩⟩

/-- The packet steps have left of a stream what its iterations and calls have left. -/
structure Unfolded (stream : Stream) (worker : Worker) : Prop where
  seq : worker.seq = stream.seq
  ring : worker.ring = stream.ring
  freed : worker.freed = stream.freed
  skips : worker.skips = stream.skips
  handedOut : worker.handedOut = stream.polled.map Prod.snd
  call : ∀ call, stream.calls.getLast? = some call →
    worker.totalSamplesReceived = call.returned ∧ worker.samples = call.samples
  idle : worker.callerMbufs = []

structure Unfolds (source : DpdkSource) (state : State) : Prop where
  streams : ∀ n, Unfolded (source.streams n) (state.workers n)
  totals : state.totals = source.totals
  terminated : state.terminated = source.terminated
  idle : source.terminated = none → ∀ n, (state.workers n).mbufs = []

theorem unfolded_put {streams : Nat → Stream} {stream : Stream}
    (unfolded : ∀ n, Unfolded (streams n) (workers n)) (own : Unfolded stream worker) (n : Nat) :
    Unfolded (Function.update streams numStream stream n)
      (Function.update workers numStream worker n) :=
  related_update (R := fun _ => Unfolded) unfolded own n

theorem idle_put (idle : ∀ n, (workers n).mbufs = []) (own : worker.mbufs = []) :
    ∀ n, (Function.update workers numStream worker n).mbufs = [] :=
  (Function.forall_update_iff workers fun _ worker => worker.mbufs = []).mpr
    ⟨own, fun n _ => idle n⟩

theorem unfolds_arrive (unfolds : Unfolds source state) (m : Mbuf)
    (taken : DpdkSource.perform setup source (.arrive numStream m) = some after) :
    Unfolds after state := by
  cases taken
  obtain ⟨seq, ring, freed, skips, handedOut, call, idle⟩ := unfolds.streams numStream
  refine ⟨fun n => ?_, unfolds.totals, unfolds.terminated, unfolds.idle⟩
  have kept := @unfolded_put numStream state.workers (state.workers numStream) source.streams
    { source.streams numStream with
      waiting := (source.streams numStream).waiting ++ [m]
      arrived := (source.streams numStream).arrived ++ [m] }
    unfolds.streams ⟨seq, ring, freed, skips, handedOut, call, idle⟩ n
  rwa [Function.update_eq_self] at kept

/-- An iteration as it looks from the stream: a burst is polled, and the loop's results are
stored. -/
theorem perform_rxThread {nbRx : Nat}
    (taken : DpdkSource.perform setup source (.rxThread numStream nbRx) = some after) :
    ∃ burst : Burst, ∃ stream : Stream,
      let thread := iterate setup source numStream burst
      after = ⟨Function.update source.streams numStream stream, thread.totals, thread.escaped⟩ ∧
      stream.seq = thread.seq ∧ stream.ring = thread.ring ∧ stream.freed = thread.freed ∧
      stream.skips = thread.skips ∧ stream.calls = (source.streams numStream).calls ∧
      stream.polled = (source.streams numStream).polled ++ burst.val.map (.rxThread, ·) := by
  simp only [DpdkSource.perform] at taken
  split at taken
  · rename_i size
    cases taken
    exact ⟨⟨_, (List.length_take_le _ _).trans size.2⟩, _, rfl, rfl, rfl, rfl, rfl, rfl, rfl⟩
  · contradiction

theorem perform_getSamples {numberOfSamples nbRx : Nat} {samples : SampleBuffer}
    (taken : DpdkSource.perform setup source (.getSamples numStream numberOfSamples nbRx samples) =
      some after) :
    ∃ burst : List Mbuf, burst.length ≤ packetsToDequeue numberOfSamples ∧ ∃ stream : Stream,
      let decoding := getSamples setup.parser burst samples
      after = { source with streams := Function.update source.streams numStream stream } ∧
      stream.seq = (source.streams numStream).seq ∧ stream.ring = (source.streams numStream).ring ∧
      stream.freed = (source.streams numStream).freed ++ decoding.freed ∧
      stream.skips = (source.streams numStream).skips ∧
      stream.calls = (source.streams numStream).calls ++
        [⟨burst, decoding.totalSamplesReceived, decoding.samples⟩] ∧
      stream.polled = (source.streams numStream).polled ++ burst.map (.getSamples, ·) := by
  simp only [DpdkSource.perform] at taken
  split at taken
  · rename_i size
    cases taken
    exact ⟨_, (List.length_take_le _ _).trans size.2, _, rfl, rfl, rfl, rfl, rfl, rfl, rfl⟩
  · contradiction

theorem unfolds_rxThread {nbRx : Nat} (unfolds : Unfolds source state)
    (running : source.terminated = none) (exists_ : numStream < setup.numStreams)
    (taken : DpdkSource.perform setup source (.rxThread numStream nbRx) = some after) :
    ∃ steps next, run (step setup) state steps = some next ∧ Unfolds after next := by
  obtain ⟨burst, stream, rfl, seq, ring, freed, skips, calls, polled⟩ := perform_rxThread taken
  obtain ⟨streams, totals, terminated, idle⟩ := unfolds
  obtain ⟨workers, counted, ended⟩ := state
  have own := streams numStream
  have alive : ended = none := terminated.trans running
  subst alive
  cases totals
  have looped : iterate setup source numStream burst =
      burst.val.foldl (RxThread.processPacket (setup.udpRxPort numStream))
        ((workers numStream).thread source.totals) := by
    rw [iterate, ← own.seq, ← own.ring, ← own.freed, ← own.skips]
    rfl
  obtain ⟨steps, mbufs, processed, reached, free⟩ :=
    run_iteration exists_ burst (idle running numStream) looped
  refine ⟨steps, _, reached, unfolded_put streams ⟨seq.symm, ring.symm, freed.symm, skips.symm,
    ?_, ?_, own.idle⟩, rfl, rfl, fun caught => idle_put (idle running) (free caught)⟩
  · rw [polled, List.map_append, ← own.handedOut, List.map_map]
    exact congrArg _ (List.map_id _).symm
  · rw [calls]
    exact own.call

theorem unfolds_getSamples {numberOfSamples nbRx : Nat} {samples : SampleBuffer}
    (unfolds : Unfolds source state) (running : source.terminated = none)
    (exists_ : numStream < setup.numStreams)
    (taken : DpdkSource.perform setup source (.getSamples numStream numberOfSamples nbRx samples) =
      some after) :
    ∃ steps next, run (step setup) state steps = some next ∧ Unfolds after next := by
  obtain ⟨burst, size, stream, rfl, seq, ring, freed, skips, calls, polled⟩ :=
    perform_getSamples taken
  obtain ⟨streams, totals, terminated, idle⟩ := unfolds
  obtain ⟨workers, counted, ended⟩ := state
  have own := streams numStream
  have alive : ended = none := terminated.trans running
  subst alive
  cases totals
  obtain ⟨steps, packetIdx, reached⟩ := @run_call setup numStream workers source.totals
    numberOfSamples burst exists_ samples own.idle size
  refine ⟨steps, _, reached, unfolded_put streams ⟨?_, ?_, ?_, ?_, ?_, ?_, rfl⟩, rfl, running.symm,
    fun _ => idle_put (idle running) (idle running numStream)⟩
  · exact own.seq.trans seq.symm
  · exact own.ring.trans ring.symm
  · rw [freed, DpdkSource.getSamples, decodeLoop_freed, ← own.freed]
    exact decodeLoop_freed ..
  · exact own.skips.trans skips.symm
  · rw [polled, List.map_append, ← own.handedOut, List.map_map]
    exact congrArg _ (List.map_id _).symm
  · intro call last
    rw [calls, List.getLast?_concat, Option.some.injEq] at last
    subst last
    simp only [Worker.returnedBy, DpdkSource.getSamples, decodeLoop_total, decodeLoop_samples,
      and_self]

theorem unfolds_step {action : DpdkSource.Action} (unfolds : Unfolds source state)
    (taken : DpdkSource.step setup source action = some after) :
    ∃ steps next, run (step setup) state steps = some next ∧ Unfolds after next := by
  unfold DpdkSource.step at taken
  split at taken
  · rename_i enabled
    cases action with
    | arrive numStream m => exact ⟨[], state, rfl, unfolds_arrive unfolds m taken⟩
    | rxThread numStream nbRx => exact unfolds_rxThread unfolds enabled.1 enabled.2 taken
    | getSamples numStream numberOfSamples nbRx samples =>
      exact unfolds_getSamples unfolds enabled.1 enabled.2 taken
  · contradiction

/-- Every run of iterations and calls is a run of packet steps. -/
theorem iterations_by_packets {actions : List DpdkSource.Action}
    (finished : run (DpdkSource.step setup) DpdkSource.start actions = some source) :
    ∃ steps state, run (step setup) start steps = some state ∧ Unfolds source state := by
  have started : Unfolds DpdkSource.start start :=
    ⟨fun n => ⟨rfl, rfl, rfl, rfl, rfl, fun _ last => by contradiction, rfl⟩, rfl, rfl,
      fun _ _ => rfl⟩
  exact run_refined (fun related taken => unfolds_step related taken) finished started

/-- The thread polls the first of two frames, a caller the second. -/
def threadThenCaller : List DpdkSource.Action :=
  [.arrive 0 (numberedFrame 5), .arrive 0 (numberedFrame 6), .rxThread 0 1,
    .getSamples 0 1 1 clearedSamples]

theorem threadThenCaller_by_packets :
    ∃ source, run (DpdkSource.step oneStream) DpdkSource.start threadThenCaller = some source ∧
      ∃ steps state, run (step oneStream) start steps = some state ∧ Unfolds source state := by
  have finished : run (DpdkSource.step oneStream) DpdkSource.start threadThenCaller = some _ := rfl
  exact ⟨_, finished, iterations_by_packets finished⟩

end JerryDriver.PacketSteps
