import JerryDriver.Dpdk.Conservation
import JerryDriver.Dpdk.Startup

/-! Runs of the source with the pools that its constructor creates. A stream's port takes
the buffer for each frame that it receives from the stream's pool, where it comes back to
when it is freed, so no more buffers than the pool has can be with the driver. The ring is
never emptied: what the receive thread puts there is gone for the pool. -/
namespace JerryDriver.PacketSteps
open DpdkSource Transition Definitions

/-- The buffers with the driver, as many as were handed out and not freed, are of the pool. -/
def FromPool (worker : Worker) : Prop :=
  worker.handedOut.length ≤ worker.freed.length + Startup.mempoolSize

instance (worker : Worker) : Decidable (FromPool worker) := inferInstanceAs (Decidable (_ ≤ _))

/-- A step that the pool of its stream has the buffers for. -/
def pooledStep (setup : Setup) (state : State) (action : Action) : Option State :=
  (step setup state action).filter fun after => FromPool (after.workers action.numStream)

variable {setup : Setup} {state after : State} {action : Action} {actions : List Action} {n : Nat}

theorem pooledStep_iff : pooledStep setup state action = some after ↔
    step setup state action = some after ∧ FromPool (after.workers action.numStream) := by
  simp [pooledStep, Option.filter_eq_some_iff]

theorem fromPool_step (taken : pooledStep setup state action = some after)
    (held : ∀ n, FromPool (state.workers n)) (n : Nat) : FromPool (after.workers n) := by
  obtain ⟨stepped, fromPool⟩ := pooledStep_iff.mp taken
  obtain ⟨-, -, now, workers, -⟩ := step_turn stepped
  rw [workers, Function.update_self] at fromPool
  rw [workers]
  exact (Function.forall_update_iff _ fun _ => FromPool).mpr ⟨fromPool, fun n _ => held n⟩ n

/-- What holds of a stream in every run under its pool. -/
structure Pooled (udpRxPort : UInt16) (worker : Worker) : Prop where
  fromPool : FromPool worker
  located : Located udpRxPort worker

theorem pooled_step (taken : pooledStep setup state action = some after)
    (held : ∀ n, Pooled (setup.udpRxPort n) (state.workers n)) (n : Nat) :
    Pooled (setup.udpRxPort n) (after.workers n) where
  fromPool := fromPool_step taken (fun n => (held n).fromPool) n
  located := located_step (pooledStep_iff.mp taken).1 (fun n => (held n).located) n

theorem run_pooled (finished : run (pooledStep setup) start actions = some state) (n : Nat) :
    Pooled (setup.udpRxPort n) (state.workers n) :=
  run_invariant (P := fun state => ∀ n, Pooled (setup.udpRxPort n) (state.workers n))
    (fun held taken => pooled_step taken held) finished
    (fun _ => ⟨Nat.zero_le _, ⟨rfl, rfl⟩⟩) n

variable {udpRxPort : UInt16} {worker : Worker}

/-- Accepted frames and bursts in hand share the buffers of the pool. -/
theorem Pooled.accepted_le (pooled : Pooled udpRxPort worker) :
    worker.mbufs.length + worker.callerMbufs.length + (acceptedFrames udpRxPort worker).length ≤
      Startup.mempoolSize := by
  have count := congrArg Multiset.card pooled.located.places
  have bound := pooled.fromPool
  simp only [Multiset.card_add, Multiset.coe_card] at count
  rw [FromPool] at bound
  omega

/-- The ring holds all accepted frames but one at most. -/
theorem Pooled.ring_lacks (pooled : Pooled udpRxPort worker) :
    (acceptedFrames udpRxPort worker).length ≤ worker.ring.items.length + 1 := by
  have bound := pooled.accepted_le
  rw [pooled.located.ring, List.length_take, ringSize]
  rw [Startup.mempoolSize] at bound
  omega

/-- A stream whose buffers are all in the ring or lost. -/
def Exhausted (udpRxPort : UInt16) (worker : Worker) : Prop :=
  Startup.mempoolSize ≤ (acceptedFrames udpRxPort worker).length

theorem acceptedFrames_mono {before now : Worker} {totals : Totals}
    (turn : Turn udpRxPort before totals now after action) :
    (acceptedFrames udpRxPort before).length ≤ (acceptedFrames udpRxPort now).length := by
  cases turn with
  | rxBurst numStream burst idle worker => subst worker; exact Nat.le_refl _
  | processPacket numStream m rest thread next processed worker =>
    subst worker
    simp only [acceptedFrames, List.filter_append, List.length_append]
    exact Nat.le_add_right _ _
  | getSamples numStream numberOfSamples burst samples idle worker =>
    subst worker
    exact Nat.le_refl _
  | decodePacket numStream m rest total samples next worker => subst worker; exact Nat.le_refl _

/-- Nothing is in hand on an exhausted stream, so a step on it polls in vain if it can be
taken at all. -/
theorem exhausted_turn {before now : Worker} {totals : Totals}
    (turn : Turn udpRxPort before totals now after action) (held : Pooled udpRxPort before)
    (exhausted : Exhausted udpRxPort before) (fits : FromPool now) :
    now.handedOut = before.handedOut := by
  have room := held.accepted_le
  rw [Exhausted] at exhausted
  have idle : before.mbufs = [] := List.eq_nil_of_length_eq_zero (by omega)
  have callerIdle : before.callerMbufs = [] := List.eq_nil_of_length_eq_zero (by omega)
  have count := congrArg Multiset.card held.located.places
  simp only [Multiset.card_add, Multiset.coe_card, idle, callerIdle, List.length_nil] at count
  rw [FromPool] at fits
  cases turn with
  | rxBurst numStream burst idle worker =>
    subst worker
    simp only [List.length_append] at fits
    have empty : burst.val = [] := List.eq_nil_of_length_eq_zero (by omega)
    rw [empty, List.append_nil]
  | processPacket numStream m rest thread next =>
    rw [idle] at next
    contradiction
  | getSamples numStream numberOfSamples burst samples idle worker =>
    subst worker
    simp only [List.length_append] at fits
    have empty : burst = [] := List.eq_nil_of_length_eq_zero (by omega)
    rw [empty, List.append_nil]
  | decodePacket numStream m rest total samples next =>
    rw [callerIdle] at next
    contradiction

/-- A stream that stays dead, with what was handed out on it up to then. -/
structure Dead (setup : Setup) (n : Nat) (handedOut : List Mbuf) (state : State) : Prop where
  pooled : ∀ n, Pooled (setup.udpRxPort n) (state.workers n)
  exhausted : Exhausted (setup.udpRxPort n) (state.workers n)
  unchanged : (state.workers n).handedOut = handedOut

theorem dead_step {handedOut : List Mbuf} (taken : pooledStep setup state action = some after)
    (dead : Dead setup n handedOut state) : Dead setup n handedOut after := by
  obtain ⟨stepped, fits⟩ := pooledStep_iff.mp taken
  obtain ⟨-, -, now, workers, turn⟩ := step_turn stepped
  obtain ⟨pooled, exhausted, unchanged⟩ := dead
  refine ⟨pooled_step taken pooled, ?_, ?_⟩
  · by_cases here : n = action.numStream
    · subst here
      rw [workers, Function.update_self]
      exact exhausted.trans (acceptedFrames_mono turn)
    · rwa [workers, Function.update_of_ne here]
  · by_cases here : n = action.numStream
    · subst here
      rw [workers, Function.update_self] at fits ⊢
      exact (exhausted_turn turn (pooled _) exhausted fits).trans unchanged
    · rwa [workers, Function.update_of_ne here]

/-- The frames that a step hands out on a stream. -/
def handing (n : Nat) : Action → List Mbuf
  | .rxBurst numStream burst => if numStream = n then burst.val else []
  | .getSamples numStream _ burst _ => if numStream = n then burst else []
  | .processPacket _ | .decodePacket _ => []

theorem step_handedOut (taken : step setup state action = some after) (n : Nat) :
    (after.workers n).handedOut = (state.workers n).handedOut ++ handing n action := by
  obtain ⟨-, -, now, workers, turn⟩ := step_turn taken
  by_cases here : n = action.numStream
  · subst here
    rw [workers, Function.update_self]
    cases turn with
    | rxBurst numStream burst idle worker =>
      subst worker
      simp only [handing, Action.numStream, if_pos]
    | processPacket numStream m rest thread next processed worker =>
      subst worker
      exact (List.append_nil _).symm
    | getSamples numStream numberOfSamples burst samples idle worker =>
      subst worker
      simp only [handing, Action.numStream, if_pos]
    | decodePacket numStream m rest total samples next worker =>
      subst worker
      exact (List.append_nil _).symm
  · rw [workers, Function.update_of_ne here]
    cases action with
    | rxBurst numStream burst =>
      rw [handing, if_neg fun same => here same.symm, List.append_nil]
    | processPacket numStream => exact (List.append_nil _).symm
    | getSamples numStream numberOfSamples burst samples =>
      rw [handing, if_neg fun same => here same.symm, List.append_nil]
    | decodePacket numStream => exact (List.append_nil _).symm

/-- A run that needs no more buffers in all than a pool has is a run under the pools. -/
theorem run_pooled_of_handing (finished : run (step setup) state actions = some after)
    (small : ∀ n, (state.workers n).handedOut.length + (actions.flatMap (handing n)).length ≤
      Startup.mempoolSize) : run (pooledStep setup) state actions = some after := by
  induction actions generalizing state with
  | nil => exact finished
  | cons action rest ih =>
    obtain ⟨middle, taken, continued⟩ := (run_cons action).mp finished
    have more (n : Nat) := step_handedOut taken n
    have within (n : Nat) : (middle.workers n).handedOut.length +
        (rest.flatMap (handing n)).length ≤ Startup.mempoolSize := by
      have bound := small n
      rw [List.flatMap_cons, List.length_append] at bound
      rw [more n, List.length_append]
      omega
    refine (run_cons action).mpr ⟨middle, pooledStep_iff.mpr ⟨taken, ?_⟩, ih continued within⟩
    have bound := within action.numStream
    rw [FromPool]
    omega

theorem handing_pollingOneByOne (frames : List Mbuf) (n : Nat) :
    ((pollingOneByOne frames).flatMap (handing n)).length ≤ frames.length := by
  induction frames with
  | nil => exact Nat.le_refl 0
  | cons m rest ih =>
    have first : (handing n (.rxBurst 0 (single m))).length ≤ 1 := by
      rw [handing]
      split
      · exact Nat.le_refl 1
      · exact Nat.zero_le 1
    have parts : (pollingOneByOne (m :: rest)).flatMap (handing n) =
        handing n (.rxBurst 0 (single m)) ++ (pollingOneByOne rest).flatMap (handing n) := rfl
    rw [parts, List.length_append, List.length_cons]
    omega

theorem run_pooled_pollingOneByOne {frames : List Mbuf} (accepted : ∀ m ∈ frames, Accepted 5000 m)
    (few : frames.length ≤ Startup.mempoolSize) :
    ∃ state, run (pooledStep oneStream) start (pollingOneByOne frames) = some state ∧
      acceptedFrames 5000 (state.workers 0) = frames := by
  have running : start.terminated = none := rfl
  obtain ⟨state, reached, processed⟩ := run_pollingOneByOne accepted running rfl
  refine ⟨state, run_pooled_of_handing reached fun n => ?_, ?_⟩
  · have handed := handing_pollingOneByOne frames n
    have none_ : ((start.workers n).handedOut).length = 0 := rfl
    omega
  · rw [acceptedFrames, processed]
    exact List.filter_eq_self.mpr fun m member => decide_eq_true (accepted m member)

/-- With the pools of the constructor a receive thread handles at most 4096 frames that pass
its test, of which at most one is not in the ring. After that many the stream is dead: no
poll of a thread or of `getSamples` is ever handed a frame on it again. -/
theorem pool_exhaustion (finished : run (pooledStep setup) start actions = some state) (n : Nat) :
    (acceptedFrames (setup.udpRxPort n) (state.workers n)).length ≤ Startup.mempoolSize ∧
    (acceptedFrames (setup.udpRxPort n) (state.workers n)).length ≤
      (state.workers n).ring.items.length + 1 ∧
    ((acceptedFrames (setup.udpRxPort n) (state.workers n)).length = Startup.mempoolSize →
      ∀ later last, run (pooledStep setup) state later = some last →
        (last.workers n).handedOut = (state.workers n).handedOut) := by
  have pooled := run_pooled finished n
  refine ⟨(Nat.le_add_left _ _).trans pooled.accepted_le, pooled.ring_lacks, ?_⟩
  intro full later last continued
  have dead : Dead setup n (state.workers n).handedOut state :=
    ⟨run_pooled finished, full.ge, rfl⟩
  have kept : Dead setup n (state.workers n).handedOut last :=
    run_invariant (fun held taken => dead_step taken held) continued dead
  exact kept.unchanged

/-- 4096 data packets, each polled by the receive thread first, leave the stream dead. -/
theorem pool_exhaustion_full :
    ∃ actions state, run (pooledStep oneStream) start actions = some state ∧
      (acceptedFrames 5000 (state.workers 0)).length = Startup.mempoolSize ∧
      (acceptedFrames 5000 (state.workers 0)).length ≤ (state.workers 0).ring.items.length + 1 ∧
      ∀ later last, run (pooledStep oneStream) state later = some last →
        (last.workers 0).handedOut = (state.workers 0).handedOut := by
  have all : ∀ m ∈ List.replicate Startup.mempoolSize dataFrame, Accepted 5000 m := by
    intro m member
    rw [(List.mem_replicate.mp member).2]
    exact dataFrame_accepted
  obtain ⟨state, reached, accepted⟩ :=
    run_pooled_pollingOneByOne all (Nat.le_of_eq List.length_replicate)
  have full : (acceptedFrames 5000 (state.workers 0)).length = Startup.mempoolSize := by
    rw [accepted, List.length_replicate]
  obtain ⟨-, ring, dead⟩ := pool_exhaustion reached 0
  exact ⟨_, state, reached, full, ring, dead full⟩

end JerryDriver.PacketSteps
