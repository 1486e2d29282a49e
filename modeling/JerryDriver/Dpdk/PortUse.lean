import JerryDriver.Dpdk.Shutdown

/-! The ports of a `DpdkSource` while it exists. All of them are started when the first
thread is launched. A thread polls its port in its loop and behind it flushes, stops and
closes the port; `getSamples` polls the same port for a caller who knows nothing of the
thread. -/
namespace JerryDriver.PortUse
open Transition Shutdown

inductive Port where
  | started
  | stopped
  | closed
  deriving DecidableEq

/-- The call that a thread behind its loop makes next. -/
inductive Epilogue where
  | rteFlowFlush
  | rteEthDevStop
  | rteEthDevClose
  | done
  deriving DecidableEq

structure State where
  object : Shutdown.State
  epilogue : Nat → Epilogue
  ports : Nat → Port

def start : State := ⟨Shutdown.start, fun _ => .rteFlowFlush, fun _ => .started⟩

/-- A stop that fails is printed, and a device that was not stopped is not closed. -/
inductive Action where
  | object (action : Shutdown.Action)
  | rteFlowFlush (numStream : Nat)
  | rteEthDevStop (numStream : Nat) (stopped : Bool)
  | rteEthDevClose (numStream : Nat)
  | getSamples (numStream : Nat)

def Allowed (state : State) : Shutdown.Action → Prop
  | .returnFromThread numStream => state.epilogue numStream = .done
  | _ => True

instance (state : State) : (action : Shutdown.Action) → Decidable (Allowed state action)
  | .returnFromThread _ => inferInstanceAs (Decidable (_ = _))
  | .launch | .setQuit | .waitLcore | .checkQuit _ | .iterate _ _ => .isTrue trivial

/-- The thread of a stream comes to this call. -/
def At (state : State) (numStream : Nat) (epilogue : Epilogue) : Prop :=
  state.object.threads numStream = .afterLoop ∧ state.epilogue numStream = epilogue

instance (state : State) (numStream : Nat) (epilogue : Epilogue) :
    Decidable (At state numStream epilogue) := inferInstanceAs (Decidable (_ ∧ _))

def State.advance (state : State) (numStream : Nat) (epilogue : Epilogue) (port : Port) : State :=
  { state with
    epilogue := Function.update state.epilogue numStream epilogue
    ports := Function.update state.ports numStream port }

def step (config : Config) (state : State) : Action → Option State
  | .object action =>
    if Allowed state action then
      (Shutdown.step config state.object action).map fun object => { state with object }
    else none
  | .rteFlowFlush numStream =>
    if At state numStream .rteFlowFlush then
      some (state.advance numStream .rteEthDevStop (state.ports numStream))
    else none
  | .rteEthDevStop numStream stopped =>
    if At state numStream .rteEthDevStop then
      some (state.advance numStream .rteEthDevClose
        (if stopped then .stopped else state.ports numStream))
    else none
  | .rteEthDevClose numStream =>
    if At state numStream .rteEthDevClose then
      some (state.advance numStream .done
        (if state.ports numStream = .stopped then .closed else state.ports numStream))
    else none
  -- The object is the caller's from the end of its construction to its destruction.
  | .getSamples numStream =>
    if state.object.main = .constructing config.numStreams ∧ numStream < config.numStreams then
      some state
    else none

/-- The thread of a stream comes to poll its port. -/
def ThreadPolls (config : Config) (state : State) (numStream : Nat) : Prop :=
  ∃ done after, step config state (.object (.iterate numStream done)) = some after

def CallerPolls (config : Config) (state : State) (numStream : Nat) : Prop :=
  ∃ after, step config state (.getSamples numStream) = some after

/-! ## The object -/

def Behind (phase : ThreadPhase) : Prop := phase = .afterLoop ∨ phase = .returned

instance (phase : ThreadPhase) : Decidable (Behind phase) := inferInstanceAs (Decidable (_ ∨ _))

structure Steady (config : Config) (state : Shutdown.State) : Prop where
  unlaunched : ∀ next, state.main = .constructing next →
    ∀ i, next ≤ i → state.threads i = .notLaunched
  quit : ∀ i, Behind (state.threads i) → state.quit = true
  running : config.dumpMode = false → ∀ next, state.main = .constructing next → state.quit = false

variable {config : Config} {object : Shutdown.State} {state after : State}

theorem steady_start (config : Config) : Steady config Shutdown.start := by
  constructor
  · intro next _ i _
    rfl
  · rintro i (behind | behind) <;> contradiction
  · intro _ next _
    rfl

/-- What a step of the object is. -/
inductive Stepped (config : Config) (object : Shutdown.State) :
    Shutdown.Action → Shutdown.State → Prop where
  | refused (next : Nat) (main : object.main = .constructing next) :
    Stepped config object .launch { object with main := .constructing (next + 1) }
  | launched (next : Nat) (main : object.main = .constructing next) :
    Stepped config object .launch
      (Shutdown.State.put { object with main := .constructing (next + 1) } next .loopHead)
  | asked (main : object.main = .constructing config.numStreams) :
    Stepped config object .setQuit { object with main := .waiting, quit := true }
  | waited (main : object.main = .waiting) :
    Stepped config object .waitLcore { object with main := .cleanup }
  | left (i : Nat) (head : object.threads i = .loopHead) (quit : object.quit = true) :
    Stepped config object (.checkQuit i) (object.put i .afterLoop)
  | entered (i : Nat) (head : object.threads i = .loopHead) (running : object.quit = false) :
    Stepped config object (.checkQuit i) (object.put i .loopBody)
  | iterated (i : Nat) (done : Bool) (body : object.threads i = .loopBody) :
    Stepped config object (.iterate i done)
      { object.put i .loopHead with quit := object.quit || (config.dumpMode && done) }
  | returned (i : Nat) (behind : object.threads i = .afterLoop) :
    Stepped config object (.returnFromThread i) (object.put i .returned)

theorem object_stepped {action : Shutdown.Action} {next : Shutdown.State}
    (taken : Shutdown.step config object action = some next) :
    Stepped config object action next := by
  cases action with
  | launch =>
    simp only [Shutdown.step] at taken
    split at taken
    · rename_i index main
      split at taken
      · split at taken
        · cases taken
          exact .refused index main
        · cases taken
          exact .launched index main
      · contradiction
    · contradiction
  | setQuit =>
    simp only [Shutdown.step] at taken
    split at taken
    · rename_i main
      cases taken
      exact .asked main
    · contradiction
  | waitLcore =>
    simp only [Shutdown.step] at taken
    split at taken
    · rename_i idle
      cases taken
      exact .waited idle.1
    · contradiction
  | checkQuit i =>
    simp only [Shutdown.step] at taken
    split at taken
    · rename_i head
      cases taken
      split
      · rename_i quit
        exact .left i head quit
      · rename_i running
        exact .entered i head (Bool.eq_false_iff.mpr running)
    · contradiction
  | iterate i done =>
    simp only [Shutdown.step] at taken
    split at taken
    · rename_i body
      cases taken
      exact .iterated i done body
    · contradiction
  | returnFromThread i =>
    simp only [Shutdown.step] at taken
    split at taken
    · rename_i behind
      cases taken
      exact .returned i behind
    · contradiction

theorem put_threads (object : Shutdown.State) (i j : Nat) (phase : ThreadPhase) :
    (object.put i phase).threads j = if j = i then phase else object.threads j :=
  Function.update_apply ..

theorem behind_put {i j : Nat} {phase : ThreadPhase} (behind : Behind (object.threads i))
    (moves : Behind (object.threads j) → Behind phase) :
    Behind ((object.put j phase).threads i) := by
  rw [put_threads]
  split
  · rename_i same
    subst same
    exact moves behind
  · exact behind

/-- A thread that is behind its loop stays there. -/
theorem Stepped.behind {action : Shutdown.Action} {next : Shutdown.State}
    (stepped : Stepped config object action next) (steady : Steady config object) {i : Nat}
    (behind : Behind (object.threads i)) : Behind (next.threads i) := by
  cases stepped with
  | refused | asked | waited => exact behind
  | launched index main =>
    refine @behind_put { object with main := .constructing (index + 1) } _ _ _ behind
      fun there => ?_
    rw [steady.unlaunched index main index (Nat.le_refl _)] at there
    exact absurd there (by decide)
  | left j => exact behind_put behind fun _ => .inl rfl
  | entered j head =>
    refine behind_put behind fun there => ?_
    rw [head] at there
    exact absurd there (by decide)
  | iterated j done body =>
    refine behind_put behind fun there => ?_
    rw [body] at there
    exact absurd there (by decide)
  | returned j => exact behind_put behind fun _ => .inr rfl

theorem behind_of_put {i j : Nat} {phase : ThreadPhase}
    (behind : Behind ((object.put j phase).threads i)) :
    Behind phase ∨ Behind (object.threads i) := by
  rw [put_threads] at behind
  split at behind
  · exact .inl behind
  · exact .inr behind

/-- A thread gets behind its loop only after it has seen `quit`, which stays set. -/
theorem Stepped.quit {action : Shutdown.Action} {next : Shutdown.State}
    (stepped : Stepped config object action next) (steady : Steady config object) {i : Nat}
    (behind : Behind (next.threads i)) : next.quit = true := by
  cases stepped with
  | refused | waited => exact steady.quit i behind
  | asked => rfl
  | launched index main =>
    rcases behind_of_put behind with head | before
    · exact absurd head (by decide)
    · exact steady.quit i before
  | left j head quit => exact quit
  | entered j head =>
    rcases behind_of_put behind with body | before
    · exact absurd body (by decide)
    · exact steady.quit i before
  | iterated j done body =>
    rcases @behind_of_put object i j .loopHead behind with head | before
    · exact absurd head (by decide)
    · exact Bool.or_eq_true_iff.mpr (.inl (steady.quit i before))
  | returned j after => exact steady.quit j (.inl after)

theorem unlaunched_put {i j : Nat} {phase : ThreadPhase} (idle : object.threads i = .notLaunched)
    (launched : object.threads j ≠ .notLaunched) :
    (object.put j phase).threads i = .notLaunched := by
  rw [put_threads, if_neg]
  · exact idle
  · rintro rfl
    exact launched idle

theorem Stepped.unlaunched {action : Shutdown.Action} {after : Shutdown.State}
    (stepped : Stepped config object action after) (steady : Steady config object) (next : Nat)
    (main : after.main = .constructing next) (i : Nat) (later : next ≤ i) :
    after.threads i = .notLaunched := by
  cases stepped with
  | refused index before =>
    cases main
    exact steady.unlaunched index before i (Nat.le_of_succ_le later)
  | launched index before =>
    cases main
    rw [put_threads, if_neg (Nat.ne_of_gt later)]
    exact steady.unlaunched index before i (Nat.le_of_succ_le later)
  | asked | waited => contradiction
  | left j head | entered j head =>
    exact unlaunched_put (steady.unlaunched next main i later) (by rw [head]; decide)
  | iterated j done body =>
    exact unlaunched_put (steady.unlaunched next main i later) (by rw [body]; decide)
  | returned j behind =>
    exact unlaunched_put (steady.unlaunched next main i later) (by rw [behind]; decide)

theorem Stepped.running {action : Shutdown.Action} {after : Shutdown.State}
    (stepped : Stepped config object action after) (steady : Steady config object)
    (plain : config.dumpMode = false) (next : Nat) (main : after.main = .constructing next) :
    after.quit = false := by
  cases stepped with
  | refused index before | launched index before => exact steady.running plain index before
  | asked | waited => contradiction
  | left | entered | returned => exact steady.running plain next main
  | iterated j done =>
    simp only [plain, Bool.false_and, Bool.or_false]
    exact steady.running plain next main

theorem Stepped.steady {action : Shutdown.Action} {after : Shutdown.State}
    (stepped : Stepped config object action after) (steady : Steady config object) :
    Steady config after :=
  ⟨stepped.unlaunched steady, fun _ => stepped.quit steady, stepped.running steady⟩

theorem step_object {action : Shutdown.Action} {next : Shutdown.State}
    (allowed : Allowed state action)
    (moved : Shutdown.step config state.object action = some next) :
    step config state (.object action) = some { state with object := next } := by
  simp only [step, if_pos allowed, moved, Option.map_some]

/-- The cases of a step. -/
inductive Taken (config : Config) (state : State) : Action → State → Prop where
  | object {action : Shutdown.Action} {next : Shutdown.State} (allowed : Allowed state action)
      (stepped : Stepped config state.object action next) :
    Taken config state (.object action) { state with object := next }
  | flushed {i : Nat} (here : At state i .rteFlowFlush) (port : Port) :
    Taken config state (.rteFlowFlush i) (state.advance i .rteEthDevStop port)
  | stopped {i : Nat} (ok : Bool) (here : At state i .rteEthDevStop) (port : Port) :
    Taken config state (.rteEthDevStop i ok) (state.advance i .rteEthDevClose port)
  | closed {i : Nat} (here : At state i .rteEthDevClose) (port : Port) :
    Taken config state (.rteEthDevClose i) (state.advance i .done port)
  | sampled {i : Nat} (constructed : state.object.main = .constructing config.numStreams)
      (within : i < config.numStreams) :
    Taken config state (.getSamples i) state

theorem step_taken {action : Action} (taken : step config state action = some after) :
    Taken config state action after := by
  cases action with
  | object action =>
    simp only [step] at taken
    split at taken
    · rename_i allowed
      obtain ⟨next, moved, rfl⟩ := Option.map_eq_some_iff.mp taken
      exact .object allowed (object_stepped moved)
    · contradiction
  | rteFlowFlush i =>
    simp only [step] at taken
    split at taken
    · rename_i here
      cases taken
      exact .flushed here _
    · contradiction
  | rteEthDevStop i stopped =>
    simp only [step] at taken
    split at taken
    · rename_i here
      cases taken
      exact .stopped stopped here _
    · contradiction
  | rteEthDevClose i =>
    simp only [step] at taken
    split at taken
    · rename_i here
      cases taken
      exact .closed here _
    · contradiction
  | getSamples i =>
    simp only [step] at taken
    split at taken
    · rename_i constructed
      cases taken
      exact .sampled constructed.1 constructed.2
    · contradiction

/-! ## The ports -/

/-- A port is as it was started until its thread is behind the loop. -/
structure Orderly (config : Config) (state : State) : Prop where
  steady : Steady config state.object
  started : ∀ i, ¬ Behind (state.object.threads i) → state.ports i = .started

theorem orderly_start (config : Config) : Orderly config start :=
  ⟨steady_start config, fun _ _ => rfl⟩

theorem advance_orderly (orderly : Orderly config state) {i : Nat} {here epilogue : Epilogue}
    (at_ : At state i here) (port : Port) : Orderly config (state.advance i epilogue port) where
  steady := orderly.steady
  started := by
    intro j before
    have other : j ≠ i := by
      rintro rfl
      exact before (.inl at_.1)
    exact (Function.update_of_ne other _ _).trans (orderly.started j before)

theorem orderly_step {action : Action} (taken : step config state action = some after)
    (orderly : Orderly config state) : Orderly config after := by
  cases step_taken taken with
  | object allowed stepped =>
    exact ⟨stepped.steady orderly.steady, fun i before =>
      orderly.started i fun behind => before (stepped.behind orderly.steady behind)⟩
  | flushed here port | stopped ok here port | closed here port =>
    exact advance_orderly orderly here port
  | sampled => exact orderly

theorem run_orderly {actions : List Action}
    (finished : run (step config) start actions = some state) :
    Orderly config state :=
  run_invariant (fun orderly taken => orderly_step taken orderly) finished (orderly_start config)

/-! ## In dump mode -/

/-- The object may move while every thread that is behind its loop is held there. -/
theorem run_objects {actions : List Shutdown.Action} {last : Shutdown.State}
    (moves : run (Shutdown.step config) object actions = some last)
    (held : ∀ i, Shutdown.Action.returnFromThread i ∉ actions) {epilogue : Nat → Epilogue}
    {ports : Nat → Port} :
    run (step config) ⟨object, epilogue, ports⟩ (actions.map .object) =
      some ⟨last, epilogue, ports⟩ := by
  induction actions generalizing object with
  | nil =>
    cases Option.some.inj moves
    rfl
  | cons action rest ih =>
    obtain ⟨middle, moved, later⟩ := (run_cons action).mp moves
    have allowed : Allowed ⟨object, epilogue, ports⟩ action := by
      cases action with
      | returnFromThread i => exact absurd List.mem_cons_self (held i)
      | launch | setQuit | waitLcore | checkQuit | iterate => trivial
    exact (run_cons _).mpr ⟨⟨middle, epilogue, ports⟩, step_object allowed moved, ih later
      fun i member => held i (List.mem_cons_of_mem _ member)⟩

/-- In dump mode a thread can bring itself behind its loop. -/
theorem leaves_loop (dump : config.dumpMode = true) {i : Nat}
    (head : object.threads i = .loopHead) :
    ∃ actions last, run (Shutdown.step config) object actions = some last ∧
      (∀ j, Shutdown.Action.returnFromThread j ∉ actions) ∧ last.main = object.main ∧
      last.threads i = .afterLoop := by
  cases quit : object.quit with
  | true =>
    refine ⟨[.checkQuit i], object.put i .afterLoop, ?_, by simp, rfl, Function.update_self ..⟩
    simp only [run, Shutdown.step, head, quit, if_true, Option.bind_some]
  | false =>
    refine ⟨[.checkQuit i, .iterate i true, .checkQuit i],
      Shutdown.State.put { object with quit := true } i .afterLoop, ?_, by simp, rfl,
      Function.update_self ..⟩
    simp [run, Shutdown.step, Shutdown.State.put, head, quit, dump]

/-- With a stream in dump mode a caller may come upon a port that was stopped. -/
theorem polls_stopped (dump : config.dumpMode = true) (some_ : 0 < config.numStreams) :
    ∃ actions state i, run (step config) start actions = some state ∧
      CallerPolls config state i ∧ state.ports i = .stopped := by
  obtain ⟨launched, launches, main, phases, running⟩ :=
    run_launches config (Nat.le_refl config.numStreams)
  obtain ⟨i, within, active, -⟩ := running 0 some_
  have head : launched.threads i = .loopHead := by
    refine (phases i).resolve_left fun idle => ?_
    rw [idle] at active
    exact active
  obtain ⟨actions, last, left, held, same, behind⟩ := leaves_loop dump head
  have first := @run_objects config _ _ _ launches (by simp) (fun _ => .rteFlowFlush)
    fun _ => .started
  have second := @run_objects config _ _ _ left held (fun _ => .rteFlowFlush) fun _ => .started
  have third : run (step config) ⟨last, fun _ => .rteFlowFlush, fun _ => .started⟩
      [.rteFlowFlush i, .rteEthDevStop i true] = some ((State.advance
        ⟨last, fun _ => .rteFlowFlush, fun _ => .started⟩ i .rteEthDevStop .started).advance i
          .rteEthDevClose .stopped) := by
    simp [run, step, At, State.advance, behind]
  exact ⟨_, _, i, (run_append first).trans ((run_append second).trans third),
    ⟨_, if_pos ⟨same.trans main, within⟩⟩, Function.update_self ..⟩

/-- In every run a thread polls a port that is started, and stops none before `quit` is set
and it is behind its loop. For a caller the same holds exactly if there is no stream in
dump mode. -/
theorem ports_in_use (config : Config) :
    (∀ actions state, run (step config) start actions = some state → ∀ i,
      (ThreadPolls config state i → state.ports i = .started) ∧
      (state.ports i ≠ .started →
        state.object.quit = true ∧ Behind (state.object.threads i))) ∧
    ((∀ actions state, run (step config) start actions = some state → ∀ i,
      CallerPolls config state i → state.ports i = .started) ↔
        (config.dumpMode = true → config.numStreams = 0)) := by
  refine ⟨fun actions state finished i => ?_, ?_, ?_⟩
  · have orderly := run_orderly finished
    constructor
    · rintro ⟨done, after, taken⟩
      refine orderly.started i fun behind => ?_
      cases step_taken taken with
      | object allowed stepped =>
        cases stepped with
        | iterated _ _ body =>
          rw [body] at behind
          exact absurd behind (by decide)
    · intro other
      have behind : Behind (state.object.threads i) := by
        by_contra before
        exact other (orderly.started i before)
      exact ⟨orderly.steady.quit i behind, behind⟩
  · intro all dump
    by_contra streams
    obtain ⟨actions, state, i, finished, polls, stopped⟩ :=
      polls_stopped dump (Nat.pos_of_ne_zero streams)
    rw [all actions state finished i polls] at stopped
    contradiction
  · rintro plain actions state finished i ⟨after, taken⟩
    cases step_taken taken with
    | sampled constructed within =>
      have dump : config.dumpMode = false := by
        refine Bool.eq_false_iff.mpr fun dump => ?_
        have none := plain dump
        omega
      have orderly := run_orderly finished
      refine orderly.started i fun behind => ?_
      have quit := orderly.steady.quit i behind
      rw [orderly.steady.running dump _ constructed] at quit
      contradiction

/-! ## Behind `quit` -/

/-- The steps that a thread takes itself. -/
def Own (numStream : Nat) : Action → Prop
  | .object (.checkQuit i) | .object (.iterate i _) | .object (.returnFromThread i) => i = numStream
  | .rteFlowFlush i | .rteEthDevStop i _ | .rteEthDevClose i => i = numStream
  | .object .launch | .object .setQuit | .object .waitLcore | .getSamples _ => False

def Iterates (numStream : Nat) : Action → Prop
  | .object (.iterate i _) => i = numStream
  | _ => False

instance (numStream : Nat) : DecidablePred (Own numStream)
  | .object (.checkQuit _) | .object (.iterate _ _) | .object (.returnFromThread _)
  | .rteFlowFlush _ | .rteEthDevStop _ _ | .rteEthDevClose _ => inferInstanceAs (Decidable (_ = _))
  | .object .launch | .object .setQuit | .object .waitLcore | .getSamples _ => .isFalse id

instance (numStream : Nat) : DecidablePred (Iterates numStream)
  | .object (.iterate _ _) => inferInstanceAs (Decidable (_ = _))
  | .object .launch | .object .setQuit | .object .waitLcore | .object (.checkQuit _)
  | .object (.returnFromThread _) | .rteFlowFlush _ | .rteEthDevStop _ _ | .rteEthDevClose _
  | .getSamples _ => .isFalse id

def Epilogue.remaining : Epilogue → Nat
  | .rteFlowFlush => 4
  | .rteEthDevStop => 3
  | .rteEthDevClose => 2
  | .done => 1

/-- The steps that are left to a thread once `quit` is set. -/
def stepsLeft (epilogue : Epilogue) : ThreadPhase → Nat
  | .loopBody => 6
  | .loopHead | .notLaunched => 5
  | .afterLoop => epilogue.remaining
  | .returned => 0

def remaining (i : Nat) (state : State) : Nat :=
  stepsLeft (state.epilogue i) (state.object.threads i)

def pollsLeft (i : Nat) (object : Shutdown.State) : Nat :=
  if object.threads i = .loopBody then 1 else 0

/-- `quit` is set, in a state that the object can come to. -/
structure Quits (config : Config) (state : State) : Prop extends Orderly config state where
  set : state.object.quit = true

theorem Stepped.stays {action : Shutdown.Action} {next : Shutdown.State}
    (stepped : Stepped config object action next) (quit : object.quit = true) :
    next.quit = true := by
  cases stepped with
  | refused | launched | waited | left | entered | returned => exact quit
  | asked => rfl
  | iterated => exact Bool.or_eq_true_iff.mpr (.inl quit)

theorem quits_step {action : Action} (quits : Quits config state)
    (taken : step config state action = some after) : Quits config after := by
  refine ⟨orderly_step taken quits.toOrderly, ?_⟩
  cases step_taken taken with
  | object allowed stepped => exact stepped.stays quits.set
  | flushed | stopped | closed | sampled => exact quits.set

theorem stepsLeft_put {epilogue : Nat → Epilogue} {i j : Nat} {phase : ThreadPhase}
    (falls : 1 + stepsLeft (epilogue j) phase ≤ stepsLeft (epilogue j) (object.threads j)) :
    (if j = i then 1 else 0) + stepsLeft (epilogue i) ((object.put j phase).threads i) ≤
      stepsLeft (epilogue i) (object.threads i) := by
  rw [put_threads]
  by_cases same : j = i
  · subst same
    simpa only [if_true] using falls
  · apply Nat.le_of_eq
    rw [if_neg same, if_neg (Ne.symm same), Nat.zero_add]

theorem advance_remaining {i j : Nat} {here epilogue : Epilogue} (at_ : At state j here)
    (falls : 1 + epilogue.remaining ≤ here.remaining) (port : Port) :
    (if j = i then 1 else 0) + remaining i (state.advance j epilogue port) ≤ remaining i state := by
  obtain ⟨behind, rfl⟩ := at_
  by_cases same : j = i
  · subst same
    simpa only [remaining, State.advance, Function.update_self, behind, stepsLeft, if_true]
      using falls
  · rw [if_neg same, Nat.zero_add, remaining, State.advance, remaining]
    simp only [Function.update_of_ne (Ne.symm same), Nat.le_refl]

/-- A thread's own steps use up what it has left, and no other step adds to it. -/
theorem remaining_step {action : Action} (i : Nat) (quits : Quits config state)
    (taken : step config state action = some after) :
    (if Own i action then 1 else 0) + remaining i after ≤ remaining i state := by
  cases step_taken taken with
  | object allowed stepped =>
    cases stepped with
    | refused | asked | waited => exact Nat.le_of_eq (Nat.zero_add _)
    | launched next main =>
      refine Nat.le_trans (Nat.le_of_eq (Nat.zero_add _)) ?_
      rw [remaining, put_threads]
      split
      · rename_i same
        rw [same, remaining, quits.steady.unlaunched next main next (Nat.le_refl _)]
        exact Nat.le_refl _
      · exact Nat.le_refl _
    | left j head =>
      refine @stepsLeft_put state.object state.epilogue i j .afterLoop ?_
      rw [head]
      cases state.epilogue j <;> decide
    | entered j head running =>
      rw [quits.set] at running
      contradiction
    | iterated j done body =>
      refine @stepsLeft_put state.object state.epilogue i j .loopHead ?_
      rw [body]
      exact Nat.le_refl _
    | returned j behind =>
      refine @stepsLeft_put state.object state.epilogue i j .returned ?_
      rw [behind, show state.epilogue j = .done from allowed]
      exact Nat.le_refl _
  | flushed here port | stopped ok here port | closed here port =>
    exact advance_remaining here (Nat.le_refl _) port
  | sampled => exact Nat.le_of_eq (Nat.zero_add _)

theorem pollsLeft_put {j : Nat} {phase : ThreadPhase} (i : Nat) (other : phase ≠ .loopBody) :
    pollsLeft i (object.put j phase) ≤ pollsLeft i object := by
  simp only [pollsLeft, put_threads]
  by_cases same : i = j
  · rw [if_pos same, if_neg other]
    exact Nat.zero_le _
  · apply Nat.le_of_eq
    rw [if_neg same]

/-- Behind `quit` a thread finishes its iteration at most, and begins none. -/
theorem pollsLeft_step {action : Action} (i : Nat) (quits : Quits config state)
    (taken : step config state action = some after) :
    (if Iterates i action then 1 else 0) + pollsLeft i after.object ≤ pollsLeft i state.object := by
  cases step_taken taken with
  | object allowed stepped =>
    cases stepped with
    | refused | asked | waited => exact Nat.le_of_eq (Nat.zero_add _)
    | launched next =>
      refine Nat.le_trans (Nat.le_of_eq (Nat.zero_add _)) ?_
      exact @pollsLeft_put { state.object with main := .constructing (next + 1) } next _ i
        (by decide)
    | left | returned =>
      refine Nat.le_trans (Nat.le_of_eq (Nat.zero_add _)) ?_
      exact pollsLeft_put i (by decide)
    | entered j head running =>
      rw [quits.set] at running
      contradiction
    | iterated j done body =>
      by_cases same : j = i
      · subst same
        have now : pollsLeft j state.object = 1 := if_pos body
        rw [now, if_pos (show Iterates j (.object (.iterate j done)) from rfl)]
        exact Nat.le_of_eq (congrArg (1 + ·) (if_neg (by simp [Shutdown.State.put])))
      · rw [if_neg (show ¬ Iterates i (.object (.iterate j done)) from same), Nat.zero_add]
        exact @pollsLeft_put state.object j .loopHead i (by decide)
  | flushed | stopped | closed | sampled => exact Nat.le_of_eq (Nat.zero_add _)

/-- A thread that is active always has a step of its own to take. -/
theorem own_enabled {i : Nat} (active : (state.object.threads i).Active) :
    ∃ action after, Own i action ∧ step config state action = some after := by
  cases phase : state.object.threads i with
  | notLaunched | returned =>
    rw [phase] at active
    exact active.elim
  | loopHead =>
    exact ⟨.object (.checkQuit i), _, rfl, step_object trivial (if_pos phase)⟩
  | loopBody =>
    exact ⟨.object (.iterate i false), _, rfl, step_object trivial (if_pos phase)⟩
  | afterLoop =>
    cases place : state.epilogue i with
    | rteFlowFlush => exact ⟨.rteFlowFlush i, _, rfl, if_pos ⟨phase, place⟩⟩
    | rteEthDevStop => exact ⟨.rteEthDevStop i true, _, rfl, if_pos ⟨phase, place⟩⟩
    | rteEthDevClose => exact ⟨.rteEthDevClose i, _, rfl, if_pos ⟨phase, place⟩⟩
    | done =>
      exact ⟨.object (.returnFromThread i), _, rfl, step_object place (if_pos phase)⟩

/-- Once `quit` is set, a thread polls its port once more at most and takes six more steps at
most, however it is interleaved with the others. As long as it is active it can go on, so a
thread that is given its turns returns. -/
theorem quit_ends_threads {actions more : List Action} {state later : State}
    (finished : run (step config) start actions = some state) (quit : state.object.quit = true)
    (continued : run (step config) state more = some later) (i : Nat) :
    (more.filter (Iterates i)).length ≤ 1 ∧ (more.filter (Own i)).length ≤ 6 ∧
      ((later.object.threads i).Active →
        ∃ action after, Own i action ∧ step config later action = some after) := by
  have quits : Quits config state := ⟨run_orderly finished, quit⟩
  have polls : (more.filter (Iterates i)).length + pollsLeft i later.object ≤
      pollsLeft i state.object :=
    @run_rank _ _ _ _ _ _ (Quits config) _ _ (fun state => pollsLeft i state.object) quits_step
      (pollsLeft_step i) continued quits
  have steps : (more.filter (Own i)).length + remaining i later ≤ remaining i state :=
    run_rank quits_step (remaining_step i) continued quits
  refine ⟨?_, ?_, own_enabled⟩
  · have left : pollsLeft i state.object ≤ 1 := by
      rw [pollsLeft]
      split <;> decide
    omega
  · have left : remaining i state ≤ 6 := by
      rw [remaining]
      cases state.object.threads i <;> cases state.epilogue i <;> decide
    omega

/-- A thread that is in its loop when the destructor sets `quit`. -/
def launchedThenQuit : List Action :=
  [.object .launch, .object (.checkQuit 0), .object .setQuit]

def woundDown : List Action := [.object (.iterate 0 false), .object (.checkQuit 0), .rteFlowFlush 0]

theorem one_thread_winds_down : ∃ state later,
    run (step ⟨fun _ => (0, 1), 1, false⟩) start launchedThenQuit = some state ∧
    run (step ⟨fun _ => (0, 1), 1, false⟩) state woundDown = some later ∧
    (woundDown.filter (Iterates 0)).length ≤ 1 ∧ (woundDown.filter (Own 0)).length ≤ 6 ∧
      ((later.object.threads 0).Active → ∃ action after, Own 0 action ∧
        step ⟨fun _ => (0, 1), 1, false⟩ later action = some after) :=
  ⟨_, _, rfl, rfl, @quit_ends_threads ⟨fun _ => (0, 1), 1, false⟩ launchedThenQuit woundDown _ _
    rfl rfl rfl 0⟩

end JerryDriver.PortUse
