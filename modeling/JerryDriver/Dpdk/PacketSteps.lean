import JerryDriver.Dpdk.Source

/-! The same source with the handling of one packet as a step. A receive thread and a call
of `getSamples` hold the burst that they were handed until its last packet is handled, and
the steps of all streams interleave. What was handed out, and which packets the threads
have handled, is recorded as history. -/
namespace JerryDriver.PacketSteps
open DpdkSource HrzrParser Transition

/-- A stream's receive thread and caller. Of `mbufs[32]` and of the caller's array only
what is still to be handled is kept. -/
structure Worker where
  mbufs : List Mbuf
  callerMbufs : List Mbuf
  packetIdx : Nat
  totalSamplesReceived : Nat
  samples : SampleBuffer
  seq : Int
  ring : RteRing
  freed : List Mbuf
  skips : List (Option Skip)
  handedOut : List Mbuf
  processed : List Mbuf

def Worker.start : Worker :=
  ⟨[], [], 0, 0, ⟨fun _ => ⟨0, 0⟩, []⟩, 0, .empty, [], [], [], []⟩

/-- The thread as its loop body sees it, with the shared counters. -/
def Worker.thread (worker : Worker) (totals : Totals) : RxThread :=
  ⟨worker.seq, totals, worker.ring, worker.freed, worker.skips, none⟩

structure State where
  workers : Nat → Worker
  totals : Totals
  terminated : Option Thrown

def start : State := ⟨fun _ => .start, ⟨0, 0⟩, none⟩

inductive Action where
  | rxBurst (numStream : Nat) (burst : Burst)
  | processPacket (numStream : Nat)
  | getSamples (numStream numberOfSamples : Nat) (burst : List Mbuf) (samples : SampleBuffer)
  | decodePacket (numStream : Nat)

def Action.numStream : Action → Nat
  | .rxBurst numStream _ | .processPacket numStream | .getSamples numStream _ _ _
  | .decodePacket numStream => numStream

/-- The packet at `mbufs[j]`; an exception leaves the loop before `j` is advanced. -/
def processPacket (udpRxPort : UInt16) (totals : Totals) (worker : Worker) :
    Option (Worker × Totals × Option Thrown) :=
  match worker.mbufs with
  | [] => none
  | m :: rest =>
    let thread := RxThread.processPacket udpRxPort (worker.thread totals) m
    some ({ worker with mbufs := if thread.escaped.isSome then m :: rest else rest
                        seq := thread.seq, ring := thread.ring, freed := thread.freed
                        skips := thread.skips, processed := worker.processed ++ [m] },
      thread.totals, thread.escaped)

/-- One iteration of the loop of `getSamples`. -/
def decodePacket (parser : HrzrParser) (worker : Worker) : Option Worker :=
  match worker.callerMbufs with
  | [] => none
  | m :: rest =>
    let decoding := decodeLoop parser [m] worker.packetIdx
      ⟨worker.totalSamplesReceived, worker.samples, worker.freed⟩
    some { worker with callerMbufs := rest, packetIdx := worker.packetIdx + 1
                       totalSamplesReceived := decoding.totalSamplesReceived
                       samples := decoding.samples, freed := decoding.freed }

def State.put (state : State) (numStream : Nat) (worker : Worker) : State :=
  { state with workers := Function.update state.workers numStream worker }

def perform (setup : Setup) (state : State) : Action → Option State
  | .rxBurst numStream burst =>
    let worker := state.workers numStream
    if worker.mbufs = [] then
      some (state.put numStream { worker with mbufs := burst.val
                                              handedOut := worker.handedOut ++ burst.val })
    else none
  | .processPacket numStream =>
    (processPacket (setup.udpRxPort numStream) state.totals (state.workers numStream)).map
      fun (worker, totals, escaped) =>
        ⟨Function.update state.workers numStream worker, totals, escaped⟩
  | .getSamples numStream numberOfSamples burst samples =>
    let worker := state.workers numStream
    if worker.callerMbufs = [] ∧ burst.length ≤ packetsToDequeue numberOfSamples then
      some (state.put numStream { worker with callerMbufs := burst, packetIdx := 0
                                              totalSamplesReceived := 0, samples := samples
                                              handedOut := worker.handedOut ++ burst })
    else none
  | .decodePacket numStream =>
    (decodePacket setup.parser (state.workers numStream)).map (state.put numStream)

def step (setup : Setup) (state : State) (action : Action) : Option State :=
  if state.terminated = none ∧ action.numStream < setup.numStreams then
    perform setup state action
  else none

/-! ## What a step does -/

/-- What a step does with the stream's worker, the counters and the process. -/
inductive Turn (udpRxPort : UInt16) (before : Worker) (totals : Totals) (now : Worker)
    (after : State) : Action → Prop where
  | rxBurst (numStream : Nat) (burst : Burst) (idle : before.mbufs = [])
      (worker : now = { before with
        mbufs := burst.val, handedOut := before.handedOut ++ burst.val })
      (kept : after.totals = totals) (running : after.terminated = none) :
      Turn udpRxPort before totals now after (.rxBurst numStream burst)
  | processPacket (numStream : Nat) (m : Mbuf) (rest : List Mbuf) (thread : RxThread)
      (next : before.mbufs = m :: rest)
      (processed : thread = RxThread.processPacket udpRxPort (before.thread totals) m)
      (worker : now = { before with
        mbufs := if thread.escaped.isSome then m :: rest else rest
        seq := thread.seq, ring := thread.ring, freed := thread.freed, skips := thread.skips
        processed := before.processed ++ [m] })
      (counted : after.totals = thread.totals) (terminated : after.terminated = thread.escaped) :
      Turn udpRxPort before totals now after (.processPacket numStream)
  | getSamples (numStream numberOfSamples : Nat) (burst : List Mbuf) (samples : SampleBuffer)
      (idle : before.callerMbufs = [])
      (worker : now = { before with
        callerMbufs := burst, packetIdx := 0, totalSamplesReceived := 0, samples := samples
        handedOut := before.handedOut ++ burst })
      (kept : after.totals = totals) (running : after.terminated = none) :
      Turn udpRxPort before totals now after (.getSamples numStream numberOfSamples burst samples)
  | decodePacket (numStream : Nat) (m : Mbuf) (rest : List Mbuf) (total : Nat)
      (samples : SampleBuffer) (next : before.callerMbufs = m :: rest)
      (worker : now = { before with
        callerMbufs := rest, packetIdx := before.packetIdx + 1
        totalSamplesReceived := total, samples := samples, freed := before.freed ++ [m] })
      (kept : after.totals = totals) (running : after.terminated = none) :
      Turn udpRxPort before totals now after (.decodePacket numStream)

variable {setup : Setup} {state after : State} {action : Action}

theorem step_turn (taken : step setup state action = some after) :
    state.terminated = none ∧ action.numStream < setup.numStreams ∧ ∃ now,
      after.workers = Function.update state.workers action.numStream now ∧
      Turn (setup.udpRxPort action.numStream) (state.workers action.numStream) state.totals now
        after action := by
  unfold step at taken
  split at taken
  · rename_i enabled
    refine ⟨enabled.1, enabled.2, ?_⟩
    cases action with
    | rxBurst numStream burst =>
      simp only [perform] at taken
      split at taken
      · rename_i idle
        cases taken
        exact ⟨_, rfl, .rxBurst numStream burst idle rfl rfl enabled.1⟩
      · contradiction
    | processPacket numStream =>
      simp only [perform, processPacket, Action.numStream] at taken ⊢
      cases next : (state.workers numStream).mbufs with
      | nil =>
        rw [next] at taken
        contradiction
      | cons m rest =>
        rw [next] at taken
        cases taken
        exact ⟨_, rfl, .processPacket numStream m rest _ next rfl rfl rfl rfl⟩
    | getSamples numStream numberOfSamples burst samples =>
      simp only [perform] at taken
      split at taken
      · rename_i idle
        cases taken
        exact ⟨_, rfl, .getSamples numStream numberOfSamples burst samples idle.1 rfl rfl enabled.1⟩
      · contradiction
    | decodePacket numStream =>
      simp only [perform, decodePacket, Action.numStream] at taken ⊢
      cases next : (state.workers numStream).callerMbufs with
      | nil =>
        rw [next] at taken
        contradiction
      | cons m rest =>
        rw [next] at taken
        cases taken
        exact ⟨_, rfl, .decodePacket numStream m rest _ _ next rfl rfl enabled.1⟩
  · contradiction

/-! ## The handling of a packet -/

theorem step_processPacket {numStream : Nat} {m : Mbuf} {rest : List Mbuf}
    (running : state.terminated = none) (exists_ : numStream < setup.numStreams)
    (next : (state.workers numStream).mbufs = m :: rest) :
    ∃ after, step setup state (.processPacket numStream) = some after ∧
      let thread := RxThread.processPacket (setup.udpRxPort numStream)
        ((state.workers numStream).thread state.totals) m
      (after.workers numStream).thread after.totals = { thread with escaped := none } ∧
      after.terminated = thread.escaped ∧
      (after.workers numStream).processed = (state.workers numStream).processed ++ [m] ∧
      (thread.escaped = none → (after.workers numStream).mbufs = rest) := by
  obtain ⟨after, taken⟩ : ∃ after, step setup state (.processPacket numStream) = some after := by
    rw [step, if_pos ⟨running, exists_⟩]
    simp only [perform, processPacket, next, Option.map_some, Option.some.injEq, exists_eq']
  obtain ⟨-, -, now, workers, turn⟩ := step_turn taken
  have here : after.workers numStream = now := by
    rw [workers]
    exact Function.update_self ..
  refine ⟨after, taken, ?_⟩
  rw [here]
  cases turn with
  | processPacket _ frame tail thread found processed worker counted terminated =>
    have same : m :: rest = frame :: tail := next.symm.trans found
    cases same
    subst worker processed
    refine ⟨?_, terminated, rfl, fun escaped => ?_⟩
    · rw [counted]
      rfl
    · simp only [Action.numStream, escaped, Option.isSome_none, Bool.false_eq_true, if_false]

end JerryDriver.PacketSteps
