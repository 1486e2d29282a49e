import JerryDriver.Dpdk.ForeignTraffic
import JerryDriver.Dpdk.Isolation
import Mathlib.Algebra.BigOperators.Group.Finset.Piecewise
import Mathlib.Algebra.Order.Group.Multiset
import Mathlib.Tactic.Abel
import Mathlib.Tactic.Ring

/-! How the two views of a source agree. Taken packet by packet, iterations and calls
overlap in any way; still each of them may be thought to happen at once, at its poll. The
source whose iterations are single steps is then ahead of the other by the frames that
threads and callers still hold. -/
namespace JerryDriver
open HrzrParser Tracking Transition DpdkSource Definitions
open Finset (range)

/-! ## Tracking ahead -/

/-- The sequence number behind the frames. -/
def lastNumber : Int → List Mbuf → Int
  | seq, [] => seq
  | _, m :: rest => lastNumber (sequenceNumber m) rest

theorem trackAll_lastNumber (tracking : Tracking) (frames : List Mbuf) :
    (tracking.trackAll frames).seq = lastNumber tracking.seq frames := by
  induction frames generalizing tracking with
  | nil => rfl
  | cons m rest ih =>
    have seq : (tracking.track m).seq = sequenceNumber m := trackSequence_seq ..
    rw [lastNumber, ← seq]
    exact ih (tracking.track m)

/-- What the loop makes of frames none of which throws. -/
structure RxThread.Handles (udpRxPort : UInt16) (frames : List Mbuf) (before after : RxThread) :
    Prop where
  seq : after.seq = lastNumber before.seq frames
  skips : amountsOf after.skips = amountsOf before.skips ++ amountsFrom before.seq frames
  totals : after.totals = before.totals.plus (lossFrom before.seq frames) frames.length
  ring : after.ring =
    (frames.filter (Accepted udpRxPort ·)).foldl (fun ring m => (ring.enqueue m).2) before.ring
  freed : after.freed = before.freed ++ frames.filter (¬ Accepted udpRxPort ·)
  escaped : after.escaped = none

theorem RxThread.foldl_handles {udpRxPort : UInt16} {thread : RxThread} {frames : List Mbuf}
    (running : thread.escaped = none)
    (decided : ∀ m ∈ frames, ∃ keep, accepts udpRxPort m = .ok keep) :
    Handles udpRxPort frames thread (frames.foldl (processPacket udpRxPort) thread) := by
  obtain ⟨escaped, ring, freed⟩ := foldl_fates running decided
  have tracked : (frames.foldl (processPacket udpRxPort) thread).tracking =
      thread.tracking.trackAll frames := by
    rw [foldl_tracking running, handledFrames_eq decided]
  have seq := trackAll_lastNumber thread.tracking frames
  obtain ⟨entries, skips, amounts, totals⟩ := trackAll_from thread.tracking frames
  rw [← tracked] at seq skips totals
  refine ⟨seq, ?_, totals, ring, freed, escaped⟩
  have appended : amountsOf (thread.skips ++ entries) =
      amountsOf thread.skips ++ amountsOf entries := List.map_append
  rw [← show amountsOf entries = amountsFrom thread.seq frames from amounts, ← appended]
  exact congrArg amountsOf skips

/-! ## Polls of frames that have just arrived -/

namespace DpdkSource

variable {setup : Setup} {source : DpdkSource} {numStream : Nat}

/-- The source with further frames waiting at a stream's port. -/
def filled (source : DpdkSource) (numStream : Nat) (frames : List Mbuf) : DpdkSource :=
  let stream := source.streams numStream
  let stream := { stream with waiting := stream.waiting ++ frames
                              arrived := stream.arrived ++ frames }
  { source with streams := Function.update source.streams numStream stream }

theorem run_arrivals (running : source.terminated = none) (exists_ : numStream < setup.numStreams)
    (frames : List Mbuf) : run (step setup) source (frames.map (.arrive numStream)) =
      some (source.filled numStream frames) := by
  induction frames generalizing source with
  | nil => simp [filled]
  | cons m rest ih =>
    have arrives : step setup source (.arrive numStream m) = some (source.filled numStream [m]) :=
      if_pos ⟨running, exists_⟩
    have later : (source.filled numStream [m]).terminated = none := running
    rw [List.map_cons, run, arrives, Option.bind_some, ih later]
    simp only [filled, Function.update_self, Function.update_idem, List.append_assoc,
      List.singleton_append]

/-- A poll of frames that have just come to an empty queue. -/
theorem poll_filled (empty : (source.streams numStream).waiting = []) (poller : Poller)
    (frames : List Mbuf) :
    poll poller frames.length ((source.filled numStream frames).streams numStream) =
      { source.streams numStream with
        arrived := (source.streams numStream).arrived ++ frames
        polled := (source.streams numStream).polled ++ frames.map (poller, ·) } := by
  simp [poll, filled, empty]

/-- The thread polls a burst that has just come to an empty queue. -/
theorem run_rxThread (running : source.terminated = none) (exists_ : numStream < setup.numStreams)
    (empty : (source.streams numStream).waiting = []) (burst : Burst) :
    let stream := source.streams numStream
    let thread := iterate setup source numStream burst
    run (step setup) source
        (burst.val.map (.arrive numStream) ++ [.rxThread numStream burst.val.length]) =
      some ⟨Function.update source.streams numStream { stream with
        arrived := stream.arrived ++ burst.val
        polled := stream.polled ++ burst.val.map (.rxThread, ·)
        seq := thread.seq, ring := thread.ring, freed := thread.freed, skips := thread.skips },
        thread.totals, thread.escaped⟩ := by
  have waiting : ((source.filled numStream burst.val).streams numStream).waiting = burst.val := by
    simp [filled, empty]
  have size : burst.val.length ≤
      ((source.filled numStream burst.val).streams numStream).waiting.length ∧
      burst.val.length ≤ 32 := ⟨by rw [waiting], burst.property⟩
  have taken : ((source.filled numStream burst.val).streams numStream).waiting.take
      burst.val.length = burst.val := by rw [waiting, List.take_length]
  rw [run_append (run_arrivals running exists_ burst.val), run, step, if_pos ⟨running, exists_⟩]
  simp only [perform, dif_pos size, taken, poll_filled empty, Option.bind_some, run_nil]
  simp [filled, iterate]

/-- A caller polls a burst that has just come to an empty queue. -/
theorem run_getSamples {numberOfSamples : Nat} (running : source.terminated = none)
    (exists_ : numStream < setup.numStreams) (empty : (source.streams numStream).waiting = [])
    (burst : List Mbuf) (samples : SampleBuffer)
    (size : burst.length ≤ packetsToDequeue numberOfSamples) :
    let stream := source.streams numStream
    let decoding := getSamples setup.parser burst samples
    run (step setup) source (burst.map (.arrive numStream) ++
        [.getSamples numStream numberOfSamples burst.length samples]) =
      some { source with streams := Function.update source.streams numStream { stream with
        arrived := stream.arrived ++ burst
        polled := stream.polled ++ burst.map (.getSamples, ·)
        freed := stream.freed ++ decoding.freed
        calls := stream.calls ++
          [⟨burst, decoding.totalSamplesReceived, decoding.samples⟩] } } := by
  have waiting : ((source.filled numStream burst).streams numStream).waiting = burst := by
    simp [filled, empty]
  have taken : ((source.filled numStream burst).streams numStream).waiting.take burst.length =
      burst := by rw [waiting, List.take_length]
  have room : burst.length ≤ ((source.filled numStream burst).streams numStream).waiting.length ∧
      burst.length ≤ packetsToDequeue numberOfSamples := ⟨by rw [waiting], size⟩
  rw [run_append (run_arrivals running exists_ burst), run, step, if_pos ⟨running, exists_⟩]
  simp only [perform, if_pos room, taken, poll_filled empty, Option.bind_some, run_nil]
  simp [filled]

end DpdkSource

/-! ## The source that is ahead -/

namespace PacketSteps

variable {setup : Setup} {state after : State} {action : Action} {actions : List Action}

/-- An iteration or a call as one step, taken where the other has its poll. -/
def atPoll : Action → List DpdkSource.Action
  | .rxBurst numStream burst =>
    burst.val.map (.arrive numStream) ++ [.rxThread numStream burst.val.length]
  | .getSamples numStream numberOfSamples burst samples =>
    burst.map (.arrive numStream) ++ [.getSamples numStream numberOfSamples burst.length samples]
  | .processPacket _ | .decodePacket _ => []

/-- The process lives, and no frame that a thread still holds will end it. -/
structure Decided (setup : Setup) (state : State) : Prop where
  running : state.terminated = none
  decided : ∀ n, ∀ m ∈ (state.workers n).mbufs, ∃ keep, accepts (setup.udpRxPort n) m = .ok keep

theorem decided_earlier (decided : Decided setup after)
    (taken : step setup state action = some after) : Decided setup state := by
  obtain ⟨running, within, now, workers, turn⟩ := step_turn taken
  obtain ⟨alive, frames⟩ := decided
  refine ⟨running, fun n => ?_⟩
  by_cases own : n = action.numStream
  · subst own
    have here := frames action.numStream
    rw [workers, Function.update_self] at here
    cases turn with
    | rxBurst numStream burst idle worker kept terminated =>
      intro m member
      rw [idle] at member
      contradiction
    | processPacket numStream m rest thread next processed worker counted terminated =>
      have escaped : thread.escaped = none := terminated.symm.trans alive
      subst worker
      simp only [escaped, Option.isSome_none, Bool.false_eq_true, if_false] at here
      intro other member
      rw [next] at member
      rcases List.mem_cons.mp member with rfl | later
      · have handled : RxThread.Handled (setup.udpRxPort numStream) other _ thread :=
          processed ▸ RxThread.processPacket_handled rfl
        cases handled with
        | accepted accepted => exact ⟨true, accepted⟩
        | refused refused => exact ⟨false, refused⟩
        | thrown thrown unknown ring freed ends =>
          rw [escaped] at ends
          contradiction
      · exact here other later
    | getSamples numStream numberOfSamples burst samples idle worker kept terminated =>
      subst worker
      exact here
    | decodePacket numStream m rest total samples next worker kept terminated =>
      subst worker
      exact here
  · have here := frames n
    rw [workers, Function.update_of_ne own] at here
    exact here

/-- The stream as it will be when its thread and its caller are through with the frames in
hand: these count, go to the ring or are freed, and the caller's fill the buffer. -/
structure Ahead (udpRxPort : UInt16) (parser : HrzrParser) (worker : Worker) (stream : Stream) :
    Prop where
  waiting : stream.waiting = []
  seq : stream.seq = lastNumber worker.seq worker.mbufs
  skips : amountsOf stream.skips = amountsOf worker.skips ++ amountsFrom worker.seq worker.mbufs
  ring : stream.ring = (worker.mbufs.filter (Accepted udpRxPort ·)).foldl
    (fun ring m => (ring.enqueue m).2) worker.ring
  freed : (stream.freed : Multiset Mbuf) = worker.freed +
    (worker.mbufs.filter (¬ Accepted udpRxPort ·) + worker.callerMbufs)
  handedOut : stream.polled.map Prod.snd = worker.handedOut
  processed : (stream.polled.filter (·.1 = .rxThread)).map Prod.snd =
    worker.processed ++ worker.mbufs
  call : ∀ call, stream.calls.getLast? = some call →
    call.returned =
      worker.totalSamplesReceived + worker.callerMbufs.length * samplesPerPacket ∧
    call.samples =
      parseBlocks parser (worker.callerMbufs.map payloadOf) worker.packetIdx worker.samples

section Turns

variable {udpRxPort : UInt16} {parser : HrzrParser} {worker : Worker} {stream : Stream}
  {thread : RxThread} {totals : Totals} {m : Mbuf} {rest : List Mbuf}

/-- What the thread does with a frame in hand was counted ahead. -/
theorem Ahead.processPacket (ahead : Ahead udpRxPort parser worker stream)
    (next : worker.mbufs = m :: rest)
    (handles : RxThread.Handles udpRxPort [m] (worker.thread totals) thread) :
    Ahead udpRxPort parser (worker.handled m rest thread) stream := by
  obtain ⟨seq, skips, -, ring, freed, escaped⟩ := handles
  have mbufs : (worker.handled m rest thread).mbufs = rest := by
    simp only [Worker.handled, escaped, Option.isSome_none, Bool.false_eq_true, if_false]
  have whole : worker.mbufs = [m] ++ rest := next
  constructor
  · exact ahead.waiting
  · rw [ahead.seq, next, mbufs, lastNumber]
    exact congrArg (lastNumber · rest) seq.symm
  · rw [ahead.skips, next, mbufs, amountsFrom]
    simp only [Worker.handled, skips, seq, Worker.thread, amountsFrom, lastNumber,
      List.append_assoc, List.singleton_append]
  · rw [ahead.ring, whole, mbufs, List.filter_append, List.foldl_append]
    simp only [Worker.handled, ring, Worker.thread]
  · rw [ahead.freed, whole, mbufs, List.filter_append]
    simp only [Worker.handled, freed, Worker.thread, ← Multiset.coe_add, add_assoc]
  · exact ahead.handedOut
  · rw [ahead.processed, next, mbufs]
    exact List.append_cons ..
  · exact ahead.call

theorem Ahead.decodePacket (ahead : Ahead udpRxPort parser worker stream) {now : Worker}
    (decodes : PacketSteps.decodePacket parser worker = some now) :
    Ahead udpRxPort parser now stream := by
  unfold PacketSteps.decodePacket at decodes
  cases next : worker.callerMbufs with
  | nil =>
    rw [next] at decodes
    contradiction
  | cons m rest =>
    rw [next] at decodes
    cases decodes
    refine ⟨ahead.waiting, ahead.seq, ahead.skips, ahead.ring, ?_, ahead.handedOut,
      ahead.processed, fun call last => ?_⟩
    · have one : (↑(m :: rest) : Multiset Mbuf) = ↑[m] + ↑rest := rfl
      rw [ahead.freed, next, one]
      simp only [decodeLoop_freed, ← Multiset.coe_add]
      abel
    · obtain ⟨returned, samples⟩ := ahead.call call last
      rw [next] at returned samples
      simp only [decodeLoop_total, decodeLoop_samples]
      constructor
      · rw [returned, List.length_cons, List.length_singleton]
        ring
      · rw [samples]
        rfl

/-- A poll: the thread of the one source takes the burst in hand, the other's is done. -/
theorem Ahead.rxBurst (ahead : Ahead udpRxPort parser worker stream) (idle : worker.mbufs = [])
    {frames : List Mbuf} (handles : RxThread.Handles udpRxPort frames
      ⟨stream.seq, totals, stream.ring, stream.freed, stream.skips, none⟩ thread) :
    Ahead udpRxPort parser
      { worker with mbufs := frames, handedOut := worker.handedOut ++ frames }
      { stream with arrived := stream.arrived ++ frames
                    polled := stream.polled ++ frames.map (.rxThread, ·)
                    seq := thread.seq, ring := thread.ring
                    freed := thread.freed, skips := thread.skips } := by
  have seq : stream.seq = worker.seq := by rw [ahead.seq, idle, lastNumber]
  have skips := ahead.skips
  have ring := ahead.ring
  have freed := ahead.freed
  have processed := ahead.processed
  rw [idle] at skips ring freed processed
  constructor
  · exact ahead.waiting
  · rw [handles.seq, seq]
  · rw [handles.skips, skips, seq, amountsFrom, List.append_nil]
  · rw [handles.ring, ring]
    rfl
  · rw [handles.freed, ← Multiset.coe_add, freed]
    simp only [List.filter_nil, Multiset.coe_nil]
    abel
  · simp [ahead.handedOut, Function.comp_def]
  · rw [List.filter_append, List.map_append, processed, List.filter_map]
    simp [Function.comp_def]
  · exact ahead.call

theorem Ahead.getSamples (ahead : Ahead udpRxPort parser worker stream)
    (idle : worker.callerMbufs = []) (burst : List Mbuf) (samples : SampleBuffer) :
    let decoding := DpdkSource.getSamples parser burst samples
    Ahead udpRxPort parser
      { worker with callerMbufs := burst, packetIdx := 0, totalSamplesReceived := 0
                    samples := samples, handedOut := worker.handedOut ++ burst }
      { stream with arrived := stream.arrived ++ burst
                    polled := stream.polled ++ burst.map (.getSamples, ·)
                    freed := stream.freed ++ decoding.freed
                    calls := stream.calls ++
                      [⟨burst, decoding.totalSamplesReceived, decoding.samples⟩] } := by
  have freed := ahead.freed
  rw [idle] at freed
  refine ⟨ahead.waiting, ahead.seq, ahead.skips, ahead.ring, ?_, ?_, ?_, fun call last => ?_⟩
  · rw [DpdkSource.getSamples, decodeLoop_freed, ← Multiset.coe_add, freed]
    simp only [List.nil_append, Multiset.coe_nil]
    abel
  · simp [ahead.handedOut, Function.comp_def]
  · simp [ahead.processed]
  · rw [List.getLast?_concat, Option.some.injEq] at last
    subst last
    exact ⟨decodeLoop_total .., decodeLoop_samples ..⟩

end Turns

/-- What the frames in the threads' hands will add to the packets lost. -/
def pendingLost (setup : Setup) (state : State) : Nat :=
  ∑ n ∈ range setup.numStreams, lossFrom (state.workers n).seq (state.workers n).mbufs

def pendingPackets (setup : Setup) (state : State) : Nat :=
  ∑ n ∈ range setup.numStreams, (state.workers n).mbufs.length

theorem sum_put (measure : Worker → Nat) (workers : Nat → Worker) {k numStreams : Nat}
    (now : Worker)
    (within : k < numStreams) :
    ∑ n ∈ range numStreams, measure (Function.update workers k now n) + measure (workers k) =
      ∑ n ∈ range numStreams, measure (workers n) + measure now := by
  have member : k ∈ range numStreams := Finset.mem_range.mpr within
  have updated : (fun n => measure (Function.update workers k now n)) =
      Function.update (measure ∘ workers) k (measure now) := Function.comp_update ..
  rw [updated, Finset.sum_update_of_mem member,
    Finset.sum_eq_add_sum_sdiff_singleton_of_mem member (fun n => measure (workers n))]
  simp only [Function.comp_apply]
  omega

/-- The source of single steps is ahead in every stream, and in the counters by what all
threads have in hand. -/
structure Shadows (setup : Setup) (state : State) (source : DpdkSource) : Prop where
  streams : ∀ n,
    Ahead (setup.udpRxPort n) setup.parser (state.workers n) (source.streams n)
  totals : source.totals = state.totals.plus (pendingLost setup state) (pendingPackets setup state)
  running : source.terminated = none

section Simulation

variable {source : DpdkSource} {numStream : Nat}

theorem Shadows.put (shadows : Shadows setup state source) {worker : Worker} {stream : Stream}
    (ahead : Ahead (setup.udpRxPort numStream) setup.parser worker stream) (n : Nat) :
    Ahead (setup.udpRxPort n) setup.parser (Function.update state.workers numStream worker n)
      (Function.update source.streams numStream stream n) :=
  related_update (R := fun n => Ahead (setup.udpRxPort n) setup.parser) shadows.streams ahead n

theorem Shadows.put_worker (shadows : Shadows setup state source) {worker : Worker}
    (ahead : Ahead (setup.udpRxPort numStream) setup.parser worker (source.streams numStream))
    (n : Nat) :
    Ahead (setup.udpRxPort n) setup.parser (Function.update state.workers numStream worker n)
      (source.streams n) := by
  have kept := shadows.put ahead n
  rwa [Function.update_eq_self] at kept

theorem pending_put {worker : Worker} (within : numStream < setup.numStreams)
    (workers : after.workers = Function.update state.workers numStream worker) :
    pendingLost setup after +
        lossFrom (state.workers numStream).seq (state.workers numStream).mbufs =
      pendingLost setup state + lossFrom worker.seq worker.mbufs ∧
    pendingPackets setup after + (state.workers numStream).mbufs.length =
      pendingPackets setup state + worker.mbufs.length := by
  rw [pendingLost, pendingPackets, workers]
  exact ⟨sum_put (fun worker => lossFrom worker.seq worker.mbufs) state.workers worker within,
    sum_put (fun worker => worker.mbufs.length) state.workers worker within⟩

/-- A step that leaves the frames in the thread's hands leaves what they will count. -/
theorem Shadows.totals_kept (shadows : Shadows setup state source) {worker : Worker}
    (within : numStream < setup.numStreams) (seq : worker.seq = (state.workers numStream).seq)
    (mbufs : worker.mbufs = (state.workers numStream).mbufs) :
    source.totals = state.totals.plus (pendingLost setup (state.put numStream worker))
      (pendingPackets setup (state.put numStream worker)) := by
  have put : (state.put numStream worker).workers =
      Function.update state.workers numStream worker := rfl
  obtain ⟨lost, packets⟩ := pending_put within put
  rw [seq, mbufs] at lost
  rw [mbufs] at packets
  rw [shadows.totals, Nat.add_right_cancel lost, Nat.add_right_cancel packets]

theorem shadows_rxBurst (shadows : Shadows setup state source)
    (within : numStream < setup.numStreams) (idle : (state.workers numStream).mbufs = [])
    {burst : Burst}
    (decided : ∀ m ∈ burst.val, ∃ keep, accepts (setup.udpRxPort numStream) m = .ok keep)
    (workers : after.workers = Function.update state.workers numStream
      { state.workers numStream with
        mbufs := burst.val, handedOut := (state.workers numStream).handedOut ++ burst.val })
    (totals : after.totals = state.totals) :
    ∃ next, run (DpdkSource.step setup) source (atPoll (.rxBurst numStream burst)) = some next ∧
      Shadows setup after next := by
  have ahead := shadows.streams numStream
  have handles : RxThread.Handles (setup.udpRxPort numStream) burst.val _
      (iterate setup source numStream burst) := RxThread.foldl_handles rfl decided
  have seq : (source.streams numStream).seq = (state.workers numStream).seq := by
    rw [ahead.seq, idle, lastNumber]
  obtain ⟨lost, packets⟩ := pending_put within workers
  rw [idle, lossFrom, Nat.add_zero] at lost
  rw [idle, List.length_nil, Nat.add_zero] at packets
  refine ⟨_, run_rxThread shadows.running within ahead.waiting burst, ?_, ?_, handles.escaped⟩
  · rw [workers]
    exact shadows.put (ahead.rxBurst idle handles)
  · calc (iterate setup source numStream burst).totals
        = source.totals.plus (lossFrom (source.streams numStream).seq burst.val)
            burst.val.length := handles.totals
      _ = (state.totals.plus (pendingLost setup state) (pendingPackets setup state)).plus
            (lossFrom (state.workers numStream).seq burst.val) burst.val.length := by
          rw [shadows.totals, seq]
      _ = after.totals.plus (pendingLost setup after) (pendingPackets setup after) := by
          rw [Totals.plus_plus, totals, lost, packets]

theorem shadows_processPacket (shadows : Shadows setup state source)
    (within : numStream < setup.numStreams) {m : Mbuf} {rest : List Mbuf} {thread : RxThread}
    (next : (state.workers numStream).mbufs = m :: rest)
    (handles : RxThread.Handles (setup.udpRxPort numStream) [m]
      ((state.workers numStream).thread state.totals) thread)
    (workers : after.workers = Function.update state.workers numStream
      ((state.workers numStream).handled m rest thread))
    (totals : after.totals = thread.totals) : Shadows setup after source := by
  have mbufs : ((state.workers numStream).handled m rest thread).mbufs = rest := by
    simp only [Worker.handled, handles.escaped, Option.isSome_none, Bool.false_eq_true, if_false]
  have seq : ((state.workers numStream).handled m rest thread).seq = sequenceNumber m := handles.seq
  obtain ⟨lost, packets⟩ := pending_put within workers
  rw [next, mbufs, seq, lossFrom] at lost
  rw [next, mbufs, List.length_cons] at packets
  refine ⟨?_, ?_, shadows.running⟩
  · rw [workers]
    exact shadows.put_worker ((shadows.streams numStream).processPacket next handles)
  · calc source.totals
        = state.totals.plus (pendingLost setup state) (pendingPackets setup state) := shadows.totals
      _ = (state.totals.plus (lossFrom (state.workers numStream).seq [m]) 1).plus
            (pendingLost setup after) (pendingPackets setup after) := by
          rw [Totals.plus_plus, lossFrom, lossFrom]
          congr 1 <;> omega
      _ = after.totals.plus (pendingLost setup after) (pendingPackets setup after) := by
          rw [totals, handles.totals]
          rfl

theorem decodePacket_kept {parser : HrzrParser} {worker now : Worker}
    (decodes : decodePacket parser worker = some now) :
    now.seq = worker.seq ∧ now.mbufs = worker.mbufs := by
  unfold decodePacket at decodes
  split at decodes
  · contradiction
  · cases decodes
    exact ⟨rfl, rfl⟩

theorem shadows_step (shadows : Shadows setup state source)
    (now : Decided setup state) (later : Decided setup after)
    (taken : step setup state action = some after) :
    ∃ next, run (DpdkSource.step setup) source (atPoll action) = some next ∧
      Shadows setup after next := by
  unfold step at taken
  split at taken
  · rename_i enabled
    cases action with
    | rxBurst numStream burst =>
      simp only [perform] at taken
      split at taken
      · rename_i idle
        cases taken
        have decided := later.decided numStream
        simp only [State.put, Function.update_self] at decided
        exact shadows_rxBurst shadows enabled.2 idle decided rfl rfl
      · contradiction
    | processPacket numStream =>
      obtain ⟨⟨worker, totals, escaped⟩, handled, rfl⟩ := Option.map_eq_some_iff.mp taken
      have busy : (state.workers numStream).mbufs ≠ [] := by
        intro idle
        simp only [processPacket, idle] at handled
        contradiction
      obtain ⟨m, rest, next⟩ := List.exists_cons_of_ne_nil busy
      rw [processPacket_cons _ _ next] at handled
      cases handled
      have decided : ∀ other ∈ [m], ∃ keep, accepts (setup.udpRxPort numStream) other = .ok keep :=
        fun other member => now.decided numStream other
          (next ▸ List.mem_singleton.mp member ▸ List.mem_cons_self)
      exact ⟨source, rfl, shadows_processPacket shadows enabled.2 next
        (RxThread.foldl_handles rfl decided) rfl rfl⟩
    | getSamples numStream numberOfSamples burst samples =>
      simp only [perform] at taken
      split at taken
      · rename_i idle
        cases taken
        have ahead := shadows.streams numStream
        exact ⟨_, run_getSamples shadows.running enabled.2 ahead.waiting burst samples idle.2,
          shadows.put (ahead.getSamples idle.1 burst samples),
          shadows.totals_kept enabled.2 rfl rfl, shadows.running⟩
      · contradiction
    | decodePacket numStream =>
      obtain ⟨now, decoded, rfl⟩ := Option.map_eq_some_iff.mp taken
      obtain ⟨seq, mbufs⟩ := decodePacket_kept decoded
      exact ⟨source, rfl, shadows.put_worker ((shadows.streams numStream).decodePacket decoded),
        shadows.totals_kept enabled.2 seq mbufs, shadows.running⟩
  · contradiction

end Simulation

/-- What is the same in both views of a stream once nobody is at work on it. -/
structure SameStream (worker : Worker) (stream : Stream) : Prop where
  handedOut : stream.polled.map Prod.snd = worker.handedOut
  thread : worker.mbufs = [] → stream.seq = worker.seq ∧ stream.ring = worker.ring ∧
    amountsOf stream.skips = amountsOf worker.skips ∧
    (stream.polled.filter (·.1 = .rxThread)).map Prod.snd = worker.processed
  caller : worker.callerMbufs = [] → ∀ call, stream.calls.getLast? = some call →
    call.returned = worker.totalSamplesReceived ∧ call.samples = worker.samples
  freed : worker.mbufs = [] → worker.callerMbufs = [] → stream.freed.Perm worker.freed

theorem Ahead.same {udpRxPort : UInt16} {parser : HrzrParser} {worker : Worker} {stream : Stream}
    (ahead : Ahead udpRxPort parser worker stream) : SameStream worker stream := by
  obtain ⟨-, seq, skips, ring, freed, handedOut, processed, call⟩ := ahead
  refine ⟨handedOut, fun idle => ?_, fun idle other last => ?_, fun thread caller => ?_⟩
  · rw [idle] at seq skips ring processed
    exact ⟨seq, ring, skips.trans (List.append_nil _), processed.trans (List.append_nil _)⟩
  · have result := call other last
    simpa only [idle, List.length_nil, Nat.zero_mul, Nat.add_zero, List.map_nil, parseBlocks]
      using result
  · rw [thread, caller] at freed
    exact Multiset.coe_eq_coe.mp (freed.trans (by simp))

theorem start_shadows (setup : Setup) : Shadows setup start DpdkSource.start := by
  refine ⟨fun n => ⟨rfl, rfl, rfl, rfl, rfl, rfl, rfl, fun call last => ?_⟩, ?_, rfl⟩
  · contradiction
  · have lost : pendingLost setup start = 0 := Finset.sum_eq_zero fun _ _ => rfl
    have packets : pendingPackets setup start = 0 := Finset.sum_eq_zero fun _ _ => rfl
    rw [lost, packets, Totals.plus_zero]
    rfl

/-- Every interleaving of packet steps leaves behind what a run leaves behind in which each
iteration and each call happens at once, at its poll, in the order of the polls. -/
theorem polls_at_once (finished : run (step setup) start actions = some state)
    (decided : Decided setup state) :
    ∃ source, run (DpdkSource.step setup) DpdkSource.start (actions.flatMap atPoll) =
        some source ∧ source.terminated = none ∧
      (∀ n, SameStream (state.workers n) (source.streams n)) ∧
      ((∀ n, (state.workers n).mbufs = []) → source.totals = state.totals) := by
  obtain ⟨source, reached, shadows⟩ := run_simulated atPoll
    (fun later taken => decided_earlier later taken)
    (fun related now later taken => shadows_step related now later taken) finished decided
    (start_shadows setup)
  refine ⟨source, reached, shadows.running, fun n => (shadows.streams n).same, fun idle => ?_⟩
  have lost : pendingLost setup state = 0 := Finset.sum_eq_zero fun n _ => by rw [idle n]; rfl
  have packets : pendingPackets setup state = 0 := Finset.sum_eq_zero fun n _ => by rw [idle n]; rfl
  rw [shadows.totals, lost, packets, Totals.plus_zero]

/-- The threads of two streams have their bursts in hand at the same time, and a caller
comes in between. -/
def overlapping : List Action :=
  [.rxBurst 0 ⟨[numberedFrame 5, numberedFrame 9], Nat.le_of_ble_eq_true rfl⟩,
    .rxBurst 1 ⟨[numberedFrame 7], Nat.le_of_ble_eq_true rfl⟩, .processPacket 0,
    .getSamples 0 1 [numberedFrame 6] clearedSamples, .processPacket 1, .processPacket 0,
    .decodePacket 0]

theorem overlapping_at_once :
    ∃ state, run (step twoStreams) start overlapping = some state ∧
      ∃ source, run (DpdkSource.step twoStreams) DpdkSource.start (overlapping.flatMap atPoll) =
          some source ∧ source.terminated = none ∧
        (∀ n, SameStream (state.workers n) (source.streams n)) ∧
        ((∀ n, (state.workers n).mbufs = []) → source.totals = state.totals) := by
  have finished : run (step twoStreams) start overlapping = some _ := rfl
  refine ⟨_, finished, polls_at_once finished ⟨rfl, ?_⟩⟩
  rintro (_ | _ | n) m member <;> contradiction

end PacketSteps

end JerryDriver
