import JerryDriver.Dpdk.Counters
import JerryDriver.Dpdk.Isolation

/-! What a receive thread makes of the frames that `getSamples` takes. The two poll one
queue, and the thread takes a step in the numbers for a loss: frames that the caller was
handed in between are reported as lost on a stream that lost nothing. -/
namespace JerryDriver.PacketSteps
open DpdkSource Transition Tracking SerialNumber

/-- A frame that a poll of the stream's queue handed out, to its thread or to a caller. -/
structure Arrived where
  toThread : Bool
  frame : Mbuf

def handed (n : Nat) : Action → List Arrived
  | .rxBurst numStream burst => if numStream = n then burst.val.map (.mk true) else []
  | .getSamples numStream _ burst _ => if numStream = n then burst.map (.mk false) else []
  | .processPacket _ | .decodePacket _ => []

/-- The frames of a stream in the order in which its queue handed them out. -/
def arrivals (n : Nat) (actions : List Action) : List Arrived := actions.flatMap (handed n)

def Arrived.number (arrived : Arrived) : Nat := sequenceNumber arrived.frame

/-- The frames that the thread polls, each with how many the callers took since its last. -/
def polled (n : Nat) (actions : List Action) : List (Nat × Arrived) :=
  readBy Arrived.toThread 0 (arrivals n actions)

/-- The amounts reported at the first frame after `taken` others. Upwards they are one more
than were taken; past the end of the numbers the two counters get what is left of them. -/
def takingReport (number taken : Nat) : Option (Nat × Nat × Int) :=
  let next := (number + taken + 1) % 4096
  let taken := taken % 4096
  if taken = 0 ∨ number = 4095 ∨ next = 0 then none
  else if number < next then some (taken + 1, taken + 1, taken + 1)
  else some (4095 - taken, 4095 - taken, if taken = 4095 then 0 else taken)

theorem amountsBetween_taken {number : Nat} (bound : number < 4096) (taken : Nat) :
    amountsBetween number ((number + taken + 1) % 4096 : Nat) = takingReport number taken := by
  have few : taken % 4096 < 4096 := Nat.mod_lt _ (by decide)
  have jumps : Jumps number ((number + taken + 1) % 4096 : Nat) ↔
      ¬ (taken % 4096 = 0 ∨ number = 4095 ∨ (number + taken + 1) % 4096 = 0) := by
    unfold Jumps
    omega
  simp only [amountsBetween, takingReport, jumps, ite_not]
  by_cases exempt : taken % 4096 = 0 ∨ number = 4095 ∨ (number + taken + 1) % 4096 = 0
  · rw [if_pos exempt, if_pos exempt]
  · rw [if_neg exempt, if_neg exempt]
    rcases Nat.lt_or_ge (number + taken % 4096 + 1) 4096 with upwards | wrapped
    · have next : (number + taken + 1) % 4096 = number + taken % 4096 + 1 := by omega
      rw [next, if_neg (by omega), if_pos (by omega)]
      have distance : (((number + taken % 4096 + 1 : Nat) : Int) - number).natAbs =
          taken % 4096 + 1 := by omega
      rw [distance]
      rfl
    · have next : (number + taken + 1) % 4096 = number + taken % 4096 + 1 - 4096 := by omega
      have distance : (((number + taken % 4096 + 1 - 4096 : Nat) : Int) - number).natAbs =
          4095 - taken % 4096 := by omega
      rw [next, distance, if_neg (by omega : ¬ number < number + taken % 4096 + 1 - 4096)]
      congr 3
      split <;> split <;> omega

variable {setup : Setup} {state after : State} {action : Action} {actions : List Action} {n : Nat}

/-! ## The frames that the thread handles -/

def threadFrames (n : Nat) (actions : List Action) : List Mbuf :=
  ((arrivals n actions).filter Arrived.toThread).map Arrived.frame

theorem polled_frames (n : Nat) (actions : List Action) :
    (polled n actions).map (·.2.frame) = threadFrames n actions := by
  rw [threadFrames, ← readBy_map Arrived.toThread 0, List.map_map]
  rfl

theorem threadFrames_cons (n : Nat) (action : Action) (actions : List Action) :
    threadFrames n (action :: actions) =
      ((handed n action).filter Arrived.toThread).map Arrived.frame ++ threadFrames n actions := by
  rw [threadFrames, threadFrames, arrivals, List.flatMap_cons, List.filter_append, List.map_append]
  rfl

theorem handed_other (other : action.numStream ≠ n) : handed n action = [] := by
  cases action with
  | rxBurst numStream burst => exact if_neg other
  | getSamples numStream numberOfSamples burst samples => exact if_neg other
  | processPacket numStream => rfl
  | decodePacket numStream => rfl

theorem frames_toThread (frames : List Mbuf) :
    ((frames.map (Arrived.mk true)).filter Arrived.toThread).map Arrived.frame = frames := by
  induction frames with
  | nil => rfl
  | cons m rest ih => rw [List.map_cons, List.filter_cons_of_pos rfl, List.map_cons, ih]

theorem frames_toCaller (frames : List Mbuf) :
    ((frames.map (Arrived.mk false)).filter Arrived.toThread).map Arrived.frame = [] := by
  induction frames with
  | nil => rfl
  | cons m rest ih => rw [List.map_cons, List.filter_cons_of_neg Bool.false_ne_true, ih]

/-- What the thread has handled and holds grows by the frames that it polls; a frame that
ended the process is the last that was handled. -/
theorem step_history (taken : step setup state action = some after) (n : Nat) :
    let handled := (state.workers n).processed ++ (state.workers n).mbufs ++
      ((handed n action).filter Arrived.toThread).map Arrived.frame
    (after.workers n).processed <+: handled ∧
      (after.terminated = none →
        (after.workers n).processed ++ (after.workers n).mbufs = handled) := by
  obtain ⟨-, -, now, workers, turn⟩ := step_turn taken
  by_cases own : action.numStream = n
  · subst own
    rw [workers, Function.update_self]
    cases turn with
    | rxBurst numStream burst idle worker kept running =>
      subst worker
      simp only [Action.numStream] at idle
      simp only [handed, Action.numStream, if_true, frames_toThread, idle, List.append_nil]
      exact ⟨List.prefix_append .., fun _ => trivial⟩
    | getSamples numStream numberOfSamples burst samples idle worker kept running =>
      subst worker
      simp only [handed, Action.numStream, if_true, frames_toCaller, List.append_nil]
      exact ⟨List.prefix_append .., fun _ => trivial⟩
    | decodePacket numStream m rest total samples next worker kept running =>
      subst worker
      simp only [handed, List.filter_nil, List.map_nil, List.append_nil]
      exact ⟨List.prefix_append .., fun _ => trivial⟩
    | processPacket numStream m rest thread next processed worker counted terminated =>
      subst worker
      have whole : (state.workers numStream).processed ++ m :: rest =
          (state.workers numStream).processed ++ [m] ++ rest := by
        rw [List.append_assoc, List.singleton_append]
      simp only [Action.numStream] at next
      simp only [handed, List.filter_nil, List.map_nil, List.append_nil, Action.numStream, next,
        whole]
      refine ⟨List.prefix_append .., fun running => ?_⟩
      rw [← terminated, running]
      rfl
  · rw [workers, Function.update_of_ne (Ne.symm own), handed_other own]
    simp only [List.filter_nil, List.map_nil, List.append_nil]
    exact ⟨List.prefix_append .., fun _ => trivial⟩

theorem run_history (finished : run (step setup) state actions = some after) (n : Nat) :
    (after.workers n).processed <+:
      (state.workers n).processed ++ (state.workers n).mbufs ++ threadFrames n actions := by
  induction actions generalizing state with
  | nil =>
    cases Option.some.inj finished
    rw [List.append_assoc]
    exact List.prefix_append ..
  | cons action rest ih =>
    obtain ⟨middle, taken, remaining⟩ := (run_cons action).mp finished
    obtain ⟨part, whole⟩ := step_history taken n
    rw [threadFrames_cons, ← List.append_assoc]
    by_cases running : middle.terminated = none
    · rw [← whole running]
      exact ih remaining
    · have last : rest = [] := by
        cases rest with
        | nil => rfl
        | cons next _ =>
          obtain ⟨_, further, -⟩ := (run_cons next).mp remaining
          exact absurd (step_turn further).1 running
      subst last
      cases Option.some.inj remaining
      exact part.trans (List.prefix_append ..)

/-- The thread has handled the frames that it polled from the first on. -/
theorem processed_polled (finished : run (step setup) start actions = some state) (n : Nat) :
    (state.workers n).processed <+: threadFrames n actions := run_history finished n

/-! ## The reports -/

/-- The thread's numbers and amounts are those of tracking its frames alone. -/
structure TracksAlone (worker : Worker) : Prop where
  seq : worker.seq = ((Tracking.start ⟨0, 0⟩).trackAll worker.processed).seq
  skips : amountsOf worker.skips =
    amountsOf ((Tracking.start ⟨0, 0⟩).trackAll worker.processed).skips

theorem tracksAlone_turn {udpRxPort : UInt16} {before now : Worker} {totals : Totals}
    (turn : Turn udpRxPort before totals now after action) (held : TracksAlone before) :
    TracksAlone now := by
  obtain ⟨processed, seq, skips, -⟩ | ⟨m, processed, tracked⟩ := turn.counts
  · exact ⟨by rw [seq, processed, held.seq], by rw [skips, processed, held.skips]⟩
  · simp only [Tracking.track, Tracking.mk.injEq] at tracked
    obtain ⟨seq, -, skips⟩ := tracked
    have amounts := held.skips
    simp only [amountsOf] at amounts
    constructor
    · rw [seq, processed, trackAll_concat, trackSequence_seq]
      exact (trackSequence_seq ..).symm
    · rw [skips, processed, trackAll_concat, Tracking.track]
      simp only [amountsOf, List.map_append, List.map_singleton, trackSequence_amounts]
      rw [amounts, held.seq]

theorem run_tracksAlone (finished : run (step setup) start actions = some state) (n : Nat) :
    TracksAlone (state.workers n) := by
  refine run_invariant (P := fun state => ∀ n, TracksAlone (state.workers n)) ?_ finished
    (fun _ => ⟨rfl, rfl⟩) n
  intro before action after held taken n
  obtain ⟨-, -, now, workers, turn⟩ := step_turn taken
  rw [workers]
  exact (Function.forall_update_iff _ fun _ => TracksAlone).mpr
    ⟨tracksAlone_turn turn (held _), fun n _ => held n⟩ n

theorem polled_at {frames : List Mbuf} {i : Nat} {m : Mbuf}
    (part : frames <+: (polled n actions).map (·.2.frame)) (found : frames[i]? = some m) :
    ∃ entry, (polled n actions)[i]? = some entry ∧ entry.2.frame = m := by
  obtain ⟨rest, whole⟩ := part
  have inside := (List.getElem?_eq_some_iff.mp found).1
  have there : ((polled n actions).map (·.2.frame))[i]? = some m := by
    rw [← whole, List.getElem?_append_left inside, found]
  rw [List.getElem?_map] at there
  exact Option.map_eq_some_iff.mp there

/-- An entry compares the numbers of two frames handled in a row. -/
theorem TracksAlone.entry {worker : Worker} (alone : TracksAlone worker) {i : Nat}
    {entry : Option Skip} (found : worker.skips[i + 1]? = some entry) :
    ∃ previous m, worker.processed[i]? = some previous ∧ worker.processed[i + 1]? = some m ∧
      entry.map Skip.amounts = amountsBetween (sequenceNumber previous) (sequenceNumber m) := by
  have amounts := congrArg (·[i + 1]?) alone.skips
  simp only [amountsOf, List.getElem?_map, found, Option.map_some] at amounts
  obtain ⟨tracked, present, same⟩ := Option.map_eq_some_iff.mp amounts.symm
  obtain ⟨previous, m, earlier, here, reported⟩ := trackAll_reported present
  exact ⟨previous, m, earlier, here, same.symm.trans reported⟩

/-- The caller takes the frame numbered 6 between those numbered 5 and 7. -/
def takingSix : List Action :=
  [.rxBurst 0 ⟨[numberedFrame 5], by decide⟩, .processPacket 0,
    .getSamples 0 1 [numberedFrame 6] clearedSamples,
    .rxBurst 0 ⟨[numberedFrame 7], by decide⟩, .processPacket 0]

end JerryDriver.PacketSteps
