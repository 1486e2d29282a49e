import JerryDriver.Dpdk.Delivery
import JerryDriver.Dpdk.PacketSteps

/-! What the streams of a source have to do with each other. They share the counters and
the process: nothing that a stream's thread or caller computes depends on the counters but
the rates that are printed, so a stream goes its way as if it were alone. -/
namespace JerryDriver
open HrzrParser Transition DpdkSource

/-- The reports of a thread without the rates. -/
def amountsOf (skips : List (Option Skip)) : List (Option (Nat × Nat × Int)) :=
  skips.map (Option.map Skip.amounts)

namespace RxThread

structure Alike (thread other : RxThread) : Prop where
  seq : thread.seq = other.seq
  ring : thread.ring = other.ring
  freed : thread.freed = other.freed
  escaped : thread.escaped = other.escaped
  skips : amountsOf thread.skips = amountsOf other.skips

theorem processPacket_alike {thread other : RxThread} (udpRxPort : UInt16) (m : Mbuf)
    (alike : Alike thread other) :
    Alike (processPacket udpRxPort thread m) (processPacket udpRxPort other m) := by
  obtain ⟨seq, ring, freed, escaped, skips⟩ := alike
  by_cases stopped : thread.escaped.isSome = true
  · rw [processPacket_escaped stopped, processPacket_escaped (escaped ▸ stopped)]
    exact ⟨seq, ring, freed, escaped, skips⟩
  have running : ¬ other.escaped.isSome = true := escaped ▸ stopped
  have reports : amountsOf
      (thread.skips ++ [(trackSequence thread.seq thread.totals m.headers.hrzr).2.2]) =
      amountsOf (other.skips ++ [(trackSequence other.seq other.totals m.headers.hrzr).2.2]) := by
    simp only [amountsOf, List.map_append, List.map_singleton, trackSequence_amounts] at skips ⊢
    rw [skips, seq]
  have numbers : (trackSequence thread.seq thread.totals m.headers.hrzr).1 =
      (trackSequence other.seq other.totals m.headers.hrzr).1 := by
    rw [trackSequence_seq, trackSequence_seq]
  simp only [processPacket, if_neg stopped, if_neg running]
  split
  · exact ⟨numbers, by rw [ring], freed, escaped, reports⟩
  · exact ⟨numbers, ring, by rw [freed], escaped, reports⟩
  · exact ⟨numbers, ring, freed, rfl, reports⟩

end RxThread

namespace PacketSteps

/-- Two workers that differ in printed rates only. -/
def Worker.Alike (worker other : Worker) : Prop :=
  ∃ skips, other = { worker with skips } ∧ amountsOf worker.skips = amountsOf skips

/-- The worker once its thread has handled the first packet in hand. -/
def Worker.handled (worker : Worker) (m : Mbuf) (rest : List Mbuf) (thread : RxThread) : Worker :=
  { worker with mbufs := if thread.escaped.isSome then m :: rest else rest
                seq := thread.seq, ring := thread.ring, freed := thread.freed
                skips := thread.skips, processed := worker.processed ++ [m] }

theorem processPacket_cons {worker : Worker} {m : Mbuf} {rest : List Mbuf} (udpRxPort : UInt16)
    (totals : Totals) (next : worker.mbufs = m :: rest) :
    let thread := RxThread.processPacket udpRxPort (worker.thread totals) m
    processPacket udpRxPort totals worker =
      some (worker.handled m rest thread, thread.totals, thread.escaped) := by
  simp only [processPacket, next]
  rfl

theorem Worker.handled_alike (worker : Worker) (skips : List (Option Skip)) (m : Mbuf)
    (rest : List Mbuf) {thread other : RxThread} (alike : RxThread.Alike thread other) :
    Worker.Alike (worker.handled m rest thread)
      (Worker.handled { worker with skips } m rest other) := by
  obtain ⟨seq, totals, ring, freed, reports, escaped⟩ := thread
  obtain ⟨rfl, rfl, rfl, rfl, amounts⟩ := alike
  exact ⟨_, rfl, amounts⟩

theorem processPacket_alike {worker other now : Worker} {udpRxPort : UInt16}
    {totals counted : Totals} {escaped : Option Thrown} (alike : Worker.Alike worker other)
    (handled : processPacket udpRxPort totals worker = some (now, counted, escaped))
    (totals' : Totals) : ∃ now' counted',
      processPacket udpRxPort totals' other = some (now', counted', escaped) ∧
      Worker.Alike now now' := by
  obtain ⟨skips, rfl, amounts⟩ := alike
  by_cases idle : worker.mbufs = []
  · simp only [processPacket, idle] at handled
    contradiction
  · obtain ⟨m, rest, next⟩ := List.exists_cons_of_ne_nil idle
    have next' : ({ worker with skips } : Worker).mbufs = m :: rest := next
    have threads : RxThread.Alike (worker.thread totals)
      (Worker.thread { worker with skips } totals') := ⟨rfl, rfl, rfl, rfl, amounts⟩
    have results := RxThread.processPacket_alike udpRxPort m threads
    rw [processPacket_cons udpRxPort totals next] at handled
    cases handled
    rw [processPacket_cons udpRxPort totals' next']
    exact ⟨_, _, congrArg some (Prod.ext rfl (Prod.ext rfl results.escaped.symm)),
      worker.handled_alike skips m rest results⟩

theorem decodePacket_alike {worker other now : Worker} {parser : HrzrParser}
    (alike : Worker.Alike worker other) (decoded : decodePacket parser worker = some now) :
    ∃ now', decodePacket parser other = some now' ∧ Worker.Alike now now' := by
  obtain ⟨skips, rfl, amounts⟩ := alike
  unfold decodePacket at decoded ⊢
  cases next : worker.callerMbufs with
  | nil =>
    rw [next] at decoded
    contradiction
  | cons m rest =>
    rw [next] at decoded
    cases decoded
    exact ⟨_, rfl, skips, rfl, amounts⟩

/-- The stream goes the same way in both, as long as neither process has ended. -/
structure Follows (n : Nat) (state alone : State) : Prop where
  worker : Worker.Alike (state.workers n) (alone.workers n)
  running : state.terminated = none → alone.terminated = none

variable {setup : Setup} {state after alone : State} {action : Action} {n : Nat}

theorem follows_other (follows : Follows n state alone) (other : ¬ action.numStream = n)
    (taken : step setup state action = some after) : Follows n after alone := by
  obtain ⟨running, -, now, workers, -⟩ := step_turn taken
  refine ⟨?_, fun _ => follows.running running⟩
  rw [workers, Function.update_of_ne (Ne.symm other)]
  exact follows.worker

theorem put_follows {worker other : Worker} (alike : Worker.Alike worker other)
    (running : alone.terminated = none) :
    Follows n (state.put n worker) (alone.put n other) := by
  refine ⟨?_, fun _ => running⟩
  simpa only [State.put, Function.update_self] using alike

theorem follows_own (follows : Follows n state alone) (own : action.numStream = n)
    (taken : step setup state action = some after) :
    ∃ next, step setup alone action = some next ∧ Follows n after next := by
  subst own
  unfold step at taken
  split at taken
  · rename_i enabled
    obtain ⟨alike, alive⟩ := follows
    have running := alive enabled.1
    rw [step, if_pos ⟨running, enabled.2⟩]
    cases action with
    | rxBurst numStream burst =>
      obtain ⟨skips, same, amounts⟩ := alike
      simp only [Action.numStream] at same
      simp only [perform, same] at taken ⊢
      split at taken
      · rename_i idle
        cases taken
        exact ⟨_, if_pos idle, put_follows ⟨skips, rfl, amounts⟩ running⟩
      · contradiction
    | processPacket numStream =>
      obtain ⟨⟨now, counted, escaped⟩, handled, rfl⟩ := Option.map_eq_some_iff.mp taken
      obtain ⟨now', counted', handled', kept⟩ := processPacket_alike alike handled alone.totals
      refine ⟨_, Option.map_eq_some_iff.mpr ⟨_, handled', rfl⟩, ?_, id⟩
      simpa only [Action.numStream, Function.update_self] using kept
    | getSamples numStream numberOfSamples burst samples =>
      obtain ⟨skips, same, amounts⟩ := alike
      simp only [Action.numStream] at same
      simp only [perform, same] at taken ⊢
      split at taken
      · rename_i idle
        cases taken
        exact ⟨_, if_pos idle, put_follows ⟨skips, rfl, amounts⟩ running⟩
      · contradiction
    | decodePacket numStream =>
      obtain ⟨now, decoded, rfl⟩ := Option.map_eq_some_iff.mp taken
      obtain ⟨now', decoded', kept⟩ := decodePacket_alike alike decoded
      exact ⟨_, Option.map_eq_some_iff.mpr ⟨_, decoded', rfl⟩, put_follows kept running⟩
  · contradiction

/-- However the packets of all streams interleave, a stream ends as it does when its own
steps are taken alone: same frames in the ring, freed and in hand, same samples, same
sequence number and same reported losses. Only the printed rates may differ. -/
theorem stream_isolated {actions : List Action}
    (finished : run (step setup) start actions = some after) (n : Nat) :
    ∃ alone, run (step setup) start (actions.filter fun action => action.numStream = n) =
        some alone ∧ Worker.Alike (after.workers n) (alone.workers n) := by
  have related : Follows n start start := ⟨⟨_, rfl, rfl⟩, id⟩
  have own {before now alone : State} {action : Action} (follows : Follows n before alone)
      (mine : action.numStream = n) (taken : step setup before action = some now) :
      ∃ next, step setup alone action = some next ∧ Follows n now next :=
    follows_own follows mine taken
  have others {before now alone : State} {action : Action} (follows : Follows n before alone)
      (other : ¬ action.numStream = n) (taken : step setup before action = some now) :
      Follows n now alone := follows_other follows other taken
  obtain ⟨alone, reached, follows⟩ := run_projection own others finished related
  exact ⟨alone, reached, follows.worker⟩

def interleaved : List Action :=
  [.rxBurst 0 ⟨[dataFrame, dataFrame], by decide⟩, .rxBurst 1 ⟨[dataFrame], by decide⟩,
    .getSamples 0 366 [dataFrame] clearedSamples]

theorem stream_isolated_of_two : ∃ after, run (step twoStreams) start interleaved = some after ∧
    ∃ alone, run (step twoStreams) start
        (interleaved.filter fun action => action.numStream = 0) = some alone ∧
      Worker.Alike (after.workers 0) (alone.workers 0) :=
  ⟨_, rfl, stream_isolated rfl 0⟩

end PacketSteps
end JerryDriver
