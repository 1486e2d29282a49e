import JerryDriver.Dpdk.Delivery
import JerryDriver.Dpdk.PacketSteps
import Mathlib.Algebra.Order.Group.Multiset
import Mathlib.Tactic.Abel

/-! Where the packet buffers are. From the poll that hands it out until it is freed a
buffer is owned by the driver; the ring is the one place that it does not come back
from, since nothing dequeues. -/
namespace JerryDriver.PacketSteps
open DpdkSource Transition Definitions

/-- Every buffer handed out so far lies in exactly one place: in a burst that is being
processed, in the ring, or among those freed, each as often as it was handed out. -/
def Conserved (worker : Worker) : Prop :=
  (worker.mbufs + worker.callerMbufs + worker.ring.items + worker.freed : Multiset Mbuf) =
    worker.handedOut

/-- The frames that the thread has handled and that pass its test, in order. -/
def acceptedFrames (udpRxPort : UInt16) (worker : Worker) : List Mbuf :=
  worker.processed.filter fun m => Accepted udpRxPort m

/-- The ring holds the first accepted frames; with all of them no buffer is missing. -/
structure Located (udpRxPort : UInt16) (worker : Worker) : Prop where
  ring : worker.ring.items = (acceptedFrames udpRxPort worker).take (ringSize - 1)
  places : (worker.mbufs + worker.callerMbufs + acceptedFrames udpRxPort worker +
    worker.freed : Multiset Mbuf) = worker.handedOut

theorem Located.account_iff {udpRxPort : UInt16} {worker : Worker}
    (located : Located udpRxPort worker) :
    Conserved worker ↔ (acceptedFrames udpRxPort worker).length ≤ ringSize - 1 := by
  rw [Conserved, ← located.places, located.ring, add_left_inj, add_right_inj]
  constructor
  · intro same
    have count := congrArg Multiset.card same
    rw [Multiset.coe_card, Multiset.coe_card, List.length_take] at count
    omega
  · intro fits
    rw [List.take_of_length_le fits]

variable {setup : Setup} {state after : State} {action : Action} {actions : List Action}

private theorem acceptedFrames_concat {udpRxPort : UInt16} (processed : List Mbuf) (m : Mbuf) :
    ((processed ++ [m]).filter fun m => Accepted udpRxPort m) =
      (processed.filter fun m => Accepted udpRxPort m) ++
        if Accepted udpRxPort m then [m] else [] := by
  rw [List.filter_append]
  split <;> simp_all

/-- A frame that the thread handles leaves the burst array for the ring or is freed; one
that throws stays. -/
theorem located_handled {udpRxPort : UInt16} {before now : Worker} {totals : Totals} {m : Mbuf}
    {rest : List Mbuf} {thread : RxThread} (next : before.mbufs = m :: rest)
    (handled : RxThread.Handled udpRxPort m (before.thread totals) thread)
    (worker : now = { before with
      mbufs := if thread.escaped.isSome then m :: rest else rest
      seq := thread.seq, ring := thread.ring, freed := thread.freed, skips := thread.skips
      processed := before.processed ++ [m] })
    (held : Located udpRxPort before) : Located udpRxPort now := by
  obtain ⟨ring, places⟩ := held
  subst worker
  cases handled with
  | accepted accepted enqueued freed escaped =>
    constructor
    · simp only [acceptedFrames, acceptedFrames_concat, if_pos accepted, enqueued]
      exact BoundedQueue.enqueue_take ring m
    · simp only [acceptedFrames, acceptedFrames_concat, if_pos accepted, escaped, freed, next,
        Option.isSome_none, Bool.false_eq_true, if_false, Worker.thread] at places ⊢
      rw [← places, ← Multiset.cons_coe m rest, ← Multiset.singleton_add, ← Multiset.coe_add,
        Multiset.coe_singleton]
      abel
  | refused refused kept freed escaped =>
    have rejected : ¬ Accepted udpRxPort m := not_accepted refused (by decide)
    constructor
    · simp only [acceptedFrames, acceptedFrames_concat, if_neg rejected, List.append_nil, kept]
      exact ring
    · simp only [acceptedFrames, acceptedFrames_concat, if_neg rejected, List.append_nil, escaped,
        freed, next, Option.isSome_none, Bool.false_eq_true, if_false, Worker.thread] at places ⊢
      rw [← places, ← Multiset.cons_coe m rest, ← Multiset.singleton_add, ← Multiset.coe_add,
        Multiset.coe_singleton]
      abel
  | thrown thrown unknown kept freed escaped =>
    have rejected : ¬ Accepted udpRxPort m := not_accepted unknown (by simp)
    constructor
    · simp only [acceptedFrames, acceptedFrames_concat, if_neg rejected, List.append_nil, kept]
      exact ring
    · simp only [acceptedFrames, acceptedFrames_concat, if_neg rejected, List.append_nil, escaped,
        freed, next, Option.isSome_some, if_true, Worker.thread] at places ⊢
      exact places

theorem located_turn {udpRxPort : UInt16} {before now : Worker} {totals : Totals}
    (turn : Turn udpRxPort before totals now after action) (held : Located udpRxPort before) :
    Located udpRxPort now := by
  obtain ⟨ring, places⟩ := held
  cases turn with
  | rxBurst numStream burst idle worker counted terminated =>
    subst worker
    refine ⟨ring, ?_⟩
    rw [idle] at places
    simp only [acceptedFrames, ← Multiset.coe_add, ← places] at places ⊢
    simp only [Multiset.coe_nil]
    abel
  | getSamples numStream numberOfSamples burst samples idle worker counted terminated =>
    subst worker
    refine ⟨ring, ?_⟩
    rw [idle] at places
    simp only [acceptedFrames, ← Multiset.coe_add, ← places] at places ⊢
    simp only [Multiset.coe_nil]
    abel
  | decodePacket numStream m rest total samples next worker counted terminated =>
    subst worker
    refine ⟨ring, ?_⟩
    rw [next, ← Multiset.cons_coe, ← Multiset.singleton_add] at places
    simp only [acceptedFrames, ← Multiset.coe_add, ← places, ← Multiset.coe_singleton]
    abel
  | processPacket numStream m rest thread next processed worker counted terminated =>
    have handled : RxThread.Handled udpRxPort m (before.thread totals) thread := by
      rw [processed]
      exact RxThread.processPacket_handled rfl
    exact located_handled next handled worker ⟨ring, places⟩

theorem located_step (taken : step setup state action = some after)
    (held : ∀ n, Located (setup.udpRxPort n) (state.workers n)) (n : Nat) :
    Located (setup.udpRxPort n) (after.workers n) := by
  obtain ⟨-, -, now, workers, turn⟩ := step_turn taken
  rw [workers]
  by_cases here : n = action.numStream
  · subst here
    rw [Function.update_self]
    exact located_turn turn (held _)
  · rw [Function.update_of_ne here]
    exact held n

theorem run_located (finished : run (step setup) start actions = some state) (n : Nat) :
    Located (setup.udpRxPort n) (state.workers n) :=
  run_invariant (P := fun state => ∀ n, Located (setup.udpRxPort n) (state.workers n))
    (fun held taken => located_step taken held) finished (fun _ => ⟨rfl, rfl⟩) n

/-- In every reachable state each buffer is in exactly one place if and only if no thread
has handled more accepted frames than its ring has room for. -/
theorem conserved_iff (finished : run (step setup) start actions = some state) :
    (∀ n, Conserved (state.workers n)) ↔
      ∀ n, (acceptedFrames (setup.udpRxPort n) (state.workers n)).length ≤ ringSize - 1 := by
  constructor
  · intro conserved n
    exact (run_located finished n).account_iff.mp (conserved n)
  · intro fits n
    exact (run_located finished n).account_iff.mpr (fits n)

def single (m : Mbuf) : Burst := ⟨[m], by simp⟩

/-- A thread that polls frames one by one. -/
def pollingOneByOne (frames : List Mbuf) : List Action :=
  frames.flatMap fun m => [.rxBurst 0 (single m), .processPacket 0]

theorem step_accepted {state : State} {m : Mbuf} (accepted : Accepted 5000 m)
    (running : state.terminated = none) (idle : (state.workers 0).mbufs = []) :
    ∃ after, run (step oneStream) state [.rxBurst 0 (single m), .processPacket 0] = some after ∧
      after.terminated = none ∧ (after.workers 0).mbufs = [] ∧
      (after.workers 0).processed = (state.workers 0).processed ++ [m] := by
  have one : 0 < oneStream.numStreams := Nat.zero_lt_one
  obtain ⟨polled, polls, active, mbufs, processed⟩ : ∃ polled,
      step oneStream state (.rxBurst 0 (single m)) = some polled ∧ polled.terminated = none ∧
      (polled.workers 0).mbufs = [m] ∧
      (polled.workers 0).processed = (state.workers 0).processed := by
    refine ⟨_, (if_pos ⟨running, one⟩).trans (if_pos idle), running, ?_, ?_⟩ <;>
      simp [State.put, single]
  obtain ⟨after, handles, -, terminated, more, free⟩ := step_processPacket active one mbufs
  have escaped : (RxThread.processPacket 5000 ((polled.workers 0).thread polled.totals) m).escaped =
      none := by
    have handled : RxThread.Handled 5000 m _ (RxThread.processPacket 5000
        ((polled.workers 0).thread polled.totals) m) := RxThread.processPacket_handled rfl
    cases handled with
    | accepted accepted ring freed escaped => exact escaped
    | refused refused ring freed escaped => exact escaped
    | thrown thrown unknown ring freed escaped =>
      rw [Accepted, unknown] at accepted
      contradiction
  refine ⟨after, (run_cons _).mpr ⟨polled, polls, (run_cons _).mpr ⟨after, handles, rfl⟩⟩,
    terminated.trans escaped, free escaped, by rw [more, processed]⟩

theorem run_pollingOneByOne {frames : List Mbuf} (accepted : ∀ m ∈ frames, Accepted 5000 m)
    {state : State} (running : state.terminated = none) (idle : (state.workers 0).mbufs = []) :
    ∃ after, run (step oneStream) state (pollingOneByOne frames) = some after ∧
      (after.workers 0).processed = (state.workers 0).processed ++ frames := by
  induction frames generalizing state with
  | nil => exact ⟨state, rfl, (List.append_nil _).symm⟩
  | cons m rest ih =>
    obtain ⟨middle, reached, active, free, processed⟩ :=
      step_accepted (accepted m List.mem_cons_self) running idle
    obtain ⟨after, further, more⟩ :=
      ih (fun other member => accepted other (List.mem_cons_of_mem _ member)) active free
    refine ⟨after, ?_, by rw [more, processed, List.append_assoc, List.singleton_append]⟩
    rw [pollingOneByOne, List.flatMap_cons]
    exact (run_append reached).trans further

theorem conserved_iff_single_packet :
    ∃ state, run (step oneStream) start (pollingOneByOne [dataFrame]) = some state ∧
      ((∀ n, Conserved (state.workers n)) ↔ ∀ n,
        (acceptedFrames (oneStream.udpRxPort n) (state.workers n)).length ≤ ringSize - 1) := by
  have accepted : ∀ m ∈ [dataFrame], Accepted 5000 m := by
    intro m member
    rw [List.mem_singleton.mp member]
    exact dataFrame_accepted
  have running : start.terminated = none := rfl
  obtain ⟨state, reached, -⟩ := run_pollingOneByOne accepted running rfl
  exact ⟨state, reached, conserved_iff reached⟩

/-- The 4096th accepted frame finds the ring full; its buffer is in no place any more. -/
theorem full_ring_leaks :
    ∃ state, run (step oneStream) start (pollingOneByOne (List.replicate 4096 dataFrame)) =
        some state ∧ ¬ Conserved (state.workers 0) := by
  have all : ∀ m ∈ List.replicate 4096 dataFrame, Accepted 5000 m := by
    intro m member
    rw [(List.mem_replicate.mp member).2]
    exact dataFrame_accepted
  have running : start.terminated = none := rfl
  obtain ⟨state, reached, processed⟩ := run_pollingOneByOne all running rfl
  have accepted : acceptedFrames 5000 (state.workers 0) = List.replicate 4096 dataFrame := by
    rw [acceptedFrames, processed]
    exact List.filter_eq_self.mpr fun m member => decide_eq_true (all m member)
  have located : Located 5000 (state.workers 0) := run_located reached 0
  refine ⟨state, reached, ?_⟩
  rw [located.account_iff, accepted, List.length_replicate]
  decide

end JerryDriver.PacketSteps
