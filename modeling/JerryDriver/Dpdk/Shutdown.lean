import JerryDriver.Library.Transition
import Mathlib.Logic.Function.Basic

/-! Construction and destruction of a `DpdkSource` with the threads in between. The
constructor launches a thread for every stream on the second of its lcores and drops the
launch's result; an lcore that runs a function refuses a further one. (A launch is for
worker lcores, which the second ones are taken to be.) The destructor sets `quit`, waits
for lcore 1 and cleans up. -/
namespace JerryDriver.Shutdown
open Transition

structure Config where
  lCores : Nat → Nat × Nat
  numStreams : Nat
  dumpMode : Bool

/-- Where a stream's thread is. Behind the loop it stops and closes its port. -/
inductive ThreadPhase where
  | notLaunched
  | loopHead
  | loopBody
  | afterLoop
  | returned
  deriving DecidableEq

/-- The thread runs: it uses the port, the ring and the object. -/
def ThreadPhase.Active : ThreadPhase → Prop
  | .loopHead | .loopBody | .afterLoop => True
  | .notLaunched | .returned => False

instance (phase : ThreadPhase) : Decidable phase.Active :=
  match phase with
  | .loopHead | .loopBody | .afterLoop => .isTrue trivial
  | .notLaunched | .returned => .isFalse id

inductive MainPhase where
  | constructing (next : Nat)
  | waiting
  | cleanup
  deriving DecidableEq

structure State where
  main : MainPhase
  threads : Nat → ThreadPhase
  quit : Bool

def start : State := ⟨.constructing 0, fun _ => .notLaunched, false⟩

inductive Action where
  | launch
  | setQuit
  | waitLcore
  | checkQuit (numStream : Nat)
  | iterate (numStream : Nat) (done : Bool)
  | returnFromThread (numStream : Nat)

def LcoreRuns (config : Config) (state : State) (lcore : Nat) : Prop :=
  ∃ i < config.numStreams, (state.threads i).Active ∧ (config.lCores i).2 = lcore

instance (config : Config) (state : State) (lcore : Nat) :
    Decidable (LcoreRuns config state lcore) :=
  inferInstanceAs (Decidable (∃ i < config.numStreams, _))

def State.put (state : State) (numStream : Nat) (phase : ThreadPhase) : State :=
  { state with threads := Function.update state.threads numStream phase }

def step (config : Config) (state : State) : Action → Option State
  | .launch =>
    match state.main with
    | .constructing next =>
      if next < config.numStreams then
        let state := { state with main := .constructing (next + 1) }
        if LcoreRuns config state (config.lCores next).2 then some state
        else some (state.put next .loopHead)
      else none
    | _ => none
  | .setQuit =>
    if state.main = .constructing config.numStreams then
      some { state with main := .waiting, quit := true }
    else none
  -- The lcore that `stopRXThread` waits for is always the same.
  | .waitLcore =>
    if state.main = .waiting ∧ ¬ LcoreRuns config state 1 then some { state with main := .cleanup }
    else none
  | .checkQuit numStream =>
    if state.threads numStream = .loopHead then
      some (state.put numStream (if state.quit then .afterLoop else .loopBody))
    else none
  -- Only `dumpThread` sets `quit` itself, when its time is up.
  | .iterate numStream done =>
    if state.threads numStream = .loopBody then
      some { state.put numStream .loopHead with quit := state.quit || (config.dumpMode && done) }
    else none
  | .returnFromThread numStream =>
    if state.threads numStream = .afterLoop then some (state.put numStream .returned) else none

/-- Once cleanup is reached no launched thread runs any more, and so none takes a step. -/
def Safe (state : State) : Prop := state.main = .cleanup → ∀ i, ¬ (state.threads i).Active

variable {config : Config} {state after : State} {action : Action} {actions : List Action}

structure Waited (config : Config) (state : State) : Prop where
  launched : ∀ i, config.numStreams ≤ i → state.threads i = .notLaunched
  safe : Safe state

theorem waited_put {i : Nat} {phase : ThreadPhase} (held : Waited config state)
    (active : (state.threads i).Active) (state' : State) (main : state'.main = state.main)
    (threads : state'.threads = Function.update state.threads i phase) : Waited config state' := by
  constructor
  · intro j beyond
    have other : j ≠ i := by
      rintro rfl
      rw [held.launched j beyond] at active
      exact active
    rw [threads, Function.update_of_ne other, held.launched j beyond]
  · intro reached
    exact absurd active (held.safe (main.symm.trans reached) i)

theorem waited_step (lcore : ∀ i < config.numStreams, (config.lCores i).2 = 1)
    (taken : step config state action = some after) (held : Waited config state) :
    Waited config after := by
  cases action with
  | launch =>
    simp only [step] at taken
    cases main : state.main with
    | waiting => rw [main] at taken; contradiction
    | cleanup => rw [main] at taken; contradiction
    | constructing next =>
      rw [main] at taken
      simp only at taken
      split at taken
      · rename_i more
        split at taken
        · cases taken
          refine ⟨held.launched, ?_⟩
          intro reached
          contradiction
        · cases taken
          constructor
          · intro j beyond
            have other : j ≠ next := by omega
            simp only [State.put, Function.update_of_ne other, held.launched j beyond]
          · intro reached
            contradiction
      · contradiction
  | setQuit =>
    simp only [step] at taken
    split at taken
    · cases taken
      refine ⟨held.launched, ?_⟩
      intro reached
      contradiction
    · contradiction
  | waitLcore =>
    simp only [step] at taken
    split at taken
    · rename_i idle
      cases taken
      refine ⟨held.launched, fun _ i active => ?_⟩
      rcases Nat.lt_or_ge i config.numStreams with within | beyond
      · exact idle.2 ⟨i, within, active, lcore i within⟩
      · have phase : state.threads i = .notLaunched := held.launched i beyond
        simp only [phase] at active
        exact active
    · contradiction
  | checkQuit numStream =>
    simp only [step] at taken
    split at taken
    · rename_i here
      cases taken
      exact waited_put held (by rw [here]; trivial) _ rfl rfl
    · contradiction
  | iterate numStream done =>
    simp only [step] at taken
    split at taken
    · rename_i here
      cases taken
      exact waited_put held (by rw [here]; trivial) _ rfl rfl
    · contradiction
  | returnFromThread numStream =>
    simp only [step] at taken
    split at taken
    · rename_i here
      cases taken
      exact waited_put held (by rw [here]; trivial) _ rfl rfl
    · contradiction

/-- Without any step of a thread in between, every lcore asked for ends up running. -/
theorem run_launches (config : Config) {launches : Nat} (within : launches ≤ config.numStreams) :
    ∃ state, run (step config) start (List.replicate launches .launch) = some state ∧
      state.main = .constructing launches ∧
      (∀ i, state.threads i = .notLaunched ∨ state.threads i = .loopHead) ∧
      ∀ i < launches, LcoreRuns config state (config.lCores i).2 := by
  induction launches with
  | zero =>
    exact ⟨start, rfl, rfl, fun _ => .inl rfl, fun i bound => absurd bound (Nat.not_lt_zero i)⟩
  | succ launches ih =>
    obtain ⟨state, reached, main, phases, running⟩ := ih (Nat.le_of_succ_le within)
    have extend {after : State} (taken : step config state .launch = some after) :
        run (step config) start (List.replicate (launches + 1) .launch) = some after := by
      rw [List.replicate_succ', run_append reached, run, taken]
      rfl
    by_cases busy : LcoreRuns config state (config.lCores launches).2
    · refine ⟨{ state with main := .constructing (launches + 1) }, extend ?_, rfl, phases, ?_⟩
      · simp only [step, main]
        exact (if_pos within).trans (if_pos busy)
      · intro i bound
        rcases Nat.lt_succ_iff_lt_or_eq.mp bound with earlier | last
        · exact running i earlier
        · rw [last]
          exact busy
    · refine ⟨State.put { state with main := .constructing (launches + 1) } launches .loopHead,
        extend ?_, rfl, ?_, ?_⟩
      · simp only [step, main]
        exact (if_pos within).trans (if_neg busy)
      · intro i
        by_cases here : i = launches
        · subst here
          exact .inr (Function.update_self ..)
        · simp only [State.put, Function.update_of_ne here]
          exact phases i
      · intro i bound
        rcases Nat.lt_succ_iff_lt_or_eq.mp bound with earlier | last
        · obtain ⟨j, inside, active, lcore⟩ := running i earlier
          refine ⟨j, inside, ?_, lcore⟩
          by_cases here : j = launches
          · subst here
            simp only [State.put, Function.update_self]
            trivial
          · simp only [State.put, Function.update_of_ne here]
            exact active
        · subst last
          refine ⟨i, within, ?_, rfl⟩
          simp only [State.put, Function.update_self]
          trivial

/-- Whether a thread is active or not, it can be brought to its return once `quit` is set. -/
theorem run_leaves (config : Config) (numStream : Nat) {state : State} (quit : state.quit = true)
    (phase : ¬ (state.threads numStream).Active ∨ state.threads numStream = .loopHead) :
    ∃ actions after last, run (step config) state actions = some after ∧ ¬ last.Active ∧
      after = state.put numStream last := by
  rcases phase with idle | head
  · refine ⟨[], state, state.threads numStream, rfl, idle, ?_⟩
    simp only [State.put, Function.update_eq_self]
  · refine ⟨[.checkQuit numStream, .returnFromThread numStream],
      state.put numStream .returned, .returned, ?_, not_false, rfl⟩
    have checked : step config state (.checkQuit numStream) =
        some (state.put numStream .afterLoop) := by
      simp only [step, head, quit, if_true]
    have returns : step config (state.put numStream .afterLoop) (.returnFromThread numStream) =
        some (state.put numStream .returned) := by
      simp only [step, State.put, Function.update_self, if_true, Function.update_idem]
    simp only [run, checked, returns, Option.bind_some]

/-- A schedule may let the threads on one lcore leave and hold back all others. -/
theorem run_leaving (config : Config) (lcore : Nat) (streams : Nat) {state : State}
    (quit : state.quit = true)
    (phases : ∀ i, ¬ (state.threads i).Active ∨ state.threads i = .loopHead) :
    ∃ actions after, run (step config) state actions = some after ∧ after.main = state.main ∧
      after.quit = true ∧
      (∀ i, ¬ (after.threads i).Active ∨ after.threads i = .loopHead) ∧
      (∀ i, (config.lCores i).2 ≠ lcore → after.threads i = state.threads i) ∧
      ∀ i < streams, (config.lCores i).2 = lcore → ¬ (after.threads i).Active := by
  induction streams with
  | zero =>
    exact ⟨[], state, rfl, rfl, quit, phases, fun _ _ => rfl,
      fun i bound => absurd bound (Nat.not_lt_zero i)⟩
  | succ streams ih =>
    obtain ⟨actions, between, reached, main, quit', phases', kept, idle⟩ := ih
    by_cases here : (config.lCores streams).2 = lcore
    · obtain ⟨more, after, last, left, inactive, rfl⟩ :=
        run_leaves config streams quit' (phases' streams)
      refine ⟨actions ++ more, _, (run_append reached).trans left, main, quit', ?_, ?_, ?_⟩
      · intro i
        by_cases same : i = streams
        · subst same
          left
          simpa only [State.put, Function.update_self] using inactive
        · simp only [State.put, Function.update_of_ne same]
          exact phases' i
      · intro i other
        have different : i ≠ streams := by
          rintro rfl
          exact other here
        simp only [State.put, Function.update_of_ne different]
        exact kept i other
      · intro i bound lcores
        by_cases same : i = streams
        · subst same
          simpa only [State.put, Function.update_self] using inactive
        · simp only [State.put, Function.update_of_ne same]
          exact idle i (by omega) lcores
    · refine ⟨actions, between, reached, main, quit', phases', kept, ?_⟩
      intro i bound lcores
      rcases Nat.lt_succ_iff_lt_or_eq.mp bound with earlier | same
      · exact idle i earlier lcores
      · subst same
        exact absurd lcores here

/-- A stream whose thread is on another lcore than 1 may still be running at cleanup. -/
theorem reaches_cleanup (config : Config) {i : Nat} (bound : i < config.numStreams)
    (elsewhere : (config.lCores i).2 ≠ 1) :
    ∃ actions state, run (step config) start actions = some state ∧ ¬ Safe state := by
  obtain ⟨launched, launches, main, phases, running⟩ :=
    run_launches config (Nat.le_refl config.numStreams)
  obtain ⟨j, within, active, lcore⟩ := running i bound
  have asked : step config launched .setQuit =
      some { launched with main := .waiting, quit := true } := if_pos main
  have quit : ({ launched with main := .waiting, quit := true } : State).quit = true := rfl
  have heads : ∀ k, ¬ (launched.threads k).Active ∨ launched.threads k = .loopHead := by
    intro k
    rcases phases k with unlaunched | head
    · left
      rw [unlaunched]
      exact id
    · exact .inr head
  obtain ⟨actions, left, leaves, main', quit', phases', kept, idle⟩ :=
    run_leaving config 1 config.numStreams quit heads
  have waited : step config left .waitLcore = some { left with main := .cleanup } := by
    refine if_pos ⟨main', ?_⟩
    rintro ⟨k, inside, busy, one⟩
    exact idle k inside one busy
  have end_ : run (step config) left [.waitLcore] = some { left with main := .cleanup } := by
    simp only [run, waited, Option.bind_some]
  have middle : run (step config) launched (.setQuit :: actions) = some left := by
    simp only [run, asked, Option.bind_some]
    exact leaves
  refine ⟨List.replicate config.numStreams .launch ++ ((.setQuit :: actions) ++ [.waitLcore]),
    _, (run_append launches).trans ((run_append middle).trans end_), ?_⟩
  intro safe
  refine safe rfl j ?_
  simp only [kept j (by rw [lcore]; exact elsewhere)]
  exact active

theorem waited_start (config : Config) : Waited config start :=
  ⟨fun _ _ => rfl, fun reached => by contradiction⟩

theorem shutdown_waits_iff (config : Config) :
    (∀ actions state, run (step config) start actions = some state → Safe state) ↔
      ∀ i < config.numStreams, (config.lCores i).2 = 1 := by
  constructor
  · intro waits i bound
    by_contra elsewhere
    obtain ⟨actions, state, reached, unsafe_⟩ := reaches_cleanup config bound elsewhere
    exact unsafe_ (waits actions state reached)
  · intro lcore actions state reached
    have preserves {before after : State} {action : Action} (held : Waited config before)
        (taken : step config before action = some after) : Waited config after :=
      waited_step lcore taken held
    exact (run_invariant preserves reached (waited_start config)).safe

/-- One stream as the tests configure it, on the lcores 0 and 24. -/
theorem one_stream_not_waited :
    ∃ actions state, run (step ⟨fun _ => (0, 24), 1, false⟩) start actions = some state ∧
      ¬ Safe state := by
  have reached : run (step ⟨fun _ => (0, 24), 1, false⟩) start [.launch, .setQuit, .waitLcore] =
      some ⟨.cleanup, Function.update (fun _ => .notLaunched) 0 .loopHead, true⟩ := by
    rfl
  refine ⟨_, _, reached, ?_⟩
  intro safe
  have active : ¬ (ThreadPhase.loopHead).Active := safe rfl 0
  exact active trivial

end JerryDriver.Shutdown
