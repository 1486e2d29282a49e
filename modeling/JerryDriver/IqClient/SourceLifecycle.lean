import JerryDriver.Dpdk.StartupOrder
import JerryDriver.Library.Transition
import Mathlib.Algebra.Order.Group.Multiset

/-! The sample source of an `IqClient` from call to call. The client holds a pointer that
nothing initializes, a setup overwrites and a teardown leaves as it is; what it points to
is kept in a heap of objects. DPDK's environment can be initialized once in a process, and
the socket of a `UdpSource` keeps its address until the process ends. Next to it stands the
purpose: a slot that holds a source or none. -/
namespace JerryDriver.SourceLifecycle
open Interaction Transition

/-- A source object, with what its constructor was given. -/
inductive Source where
  | dpdk (source : Startup.Constructed) (dumpMode : Bool)
  | udp (parser : HrzrParser)

def Source.isDpdk : Source → Bool
  | .dpdk _ _ => true
  | .udp _ => false

structure Object where
  source : Source
  deleted : Bool

/-- The members of the client that its sources are made from, and the pointer; an
indeterminate one is `none`. -/
structure Client where
  portId : Int
  dumpMode : Bool
  norm : ℚ
  sampleSource : Option Nat

def Client.create : Client := ⟨-1, false, 1, none⟩

inductive Ending where
  | exited
  | undefinedBehaviour
  deriving DecidableEq

/-- `served` records which object each call of `getSamples` went to. -/
structure Process where
  client : Client
  objects : List Object
  ealInitialized : Bool
  addressBound : Bool
  served : List Source
  ending : Option Ending

def start : Process := ⟨.create, [], false, false, [], none⟩

/-- What the system answers to the constructor of a `UdpSource`. -/
structure Network where
  socket : Int
  bind : Int

inductive Call where
  | setPortID (portId : Int)
  | setNorm (norm : ℚ)
  | setDumpMode (value : Bool)
  | setupDpdkSource (streams : List Startup.StreamAttr)
      (answers : Startup.History → (call : Startup.Call) → call.Result)
  | teardownDpdkSource
  | setupUdpSource (network : Network)
  | teardownUdpSource
  | getSamples (recvFails : Bool)

/-- What becomes of a constructor. -/
inductive Construction where
  | constructed (source : Source)
  | thrown
  | exited

def dpdkSource (norm : ℚ) (dumpMode : Bool) (streams : List Startup.StreamAttr)
    (answers : Startup.History → (call : Startup.Call) → call.Result) :
    Construction :=
  match (Startup.execution streams norm dumpMode answers).1 with
  | .ok source => .constructed (.dpdk source dumpMode)
  | .error (.thrown _) => .thrown
  | .error (.rteExit _ _) => .exited

/-- The parser first, then `connect`, which dies where a call fails. -/
def udpSource (norm : ℚ) (network : Network) : Construction :=
  match HrzrParser.create norm with
  | .error _ => .thrown
  | .ok parser =>
    if network.socket = -1 then .exited
    else if network.bind = -1 then .exited
    else .constructed (.udp parser)

/-- What the pointer points to, if it may be used. -/
def Process.source (process : Process) : Option Source :=
  process.client.sampleSource.bind fun address =>
    (process.objects[address]?).bind fun object =>
      if object.deleted then none else some object.source

/-- `sample_source = new ...`; an object that the pointer held before is not deleted. -/
def setup (process : Process) (initialized bound : Bool) : Construction → Process
  | .constructed source =>
    { process with client := { process.client with sampleSource := some process.objects.length }
                   objects := process.objects ++ [⟨source, false⟩]
                   ealInitialized := process.ealInitialized || initialized
                   addressBound := process.addressBound || bound }
  | .thrown => process
  | .exited => { process with ending := some .exited }

/-- `delete sample_source`, which both teardowns are. -/
def teardown (process : Process) : Process :=
  match process.client.sampleSource, process.source with
  | some address, some source =>
    { process with objects := process.objects.set address ⟨source, true⟩ }
  | _, _ => { process with ending := some .undefinedBehaviour }

def getSamples (process : Process) (recvFails : Bool) : Process :=
  match process.source with
  | some (.udp parser) =>
    if recvFails then { process with ending := some .exited }
    else { process with served := process.served ++ [.udp parser] }
  | some source => { process with served := process.served ++ [source] }
  | none => { process with ending := some .undefinedBehaviour }

def ealArguments (streams : List Startup.StreamAttr) : List String :=
  ["dpdk", "-l", Startup.lCoresString "" streams, "--log-level", "lib.eal:error"]

/-- What the system can answer: no second initialization of the environment succeeds, and
no second socket is bound to the address. -/
def Possible (process : Process) : Call → Prop
  | .setupDpdkSource streams answers =>
    process.ealInitialized = true → answers [] (.ealInit (ealArguments streams)) < (0 : Int)
  | .setupUdpSource network => process.addressBound = true → network.bind = -1
  | _ => True

instance (process : Process) (call : Call) : Decidable (Possible process call) :=
  match call with
  | .setupDpdkSource streams answers => inferInstanceAs (Decidable
      (_ → (answers [] (.ealInit (ealArguments streams)) : Int) < 0))
  | .setupUdpSource network => inferInstanceAs (Decidable (_ → network.bind = -1))
  | .setPortID _ | .setNorm _ | .setDumpMode _ | .teardownDpdkSource | .teardownUdpSource
  | .getSamples _ => .isTrue trivial

def perform (process : Process) : Call → Process
  | .setPortID portId => { process with client := { process.client with portId } }
  | .setNorm norm => { process with client := { process.client with norm } }
  | .setDumpMode dumpMode => { process with client := { process.client with dumpMode } }
  | .setupDpdkSource streams answers =>
    setup process true false
      (dpdkSource process.client.norm process.client.dumpMode streams answers)
  | .setupUdpSource network =>
    setup process false true (udpSource process.client.norm network)
  | .teardownDpdkSource | .teardownUdpSource => teardown process
  | .getSamples recvFails => getSamples process recvFails

def step (process : Process) (call : Call) : Option Process :=
  if process.ending = none ∧ Possible process call then some (perform process call) else none

/-! ## The slot -/

/-- A place for one source, which a setup fills with a source of the norm and dump mode set
at that time, and a teardown empties. Sources that were replaced stay behind. -/
structure Slot where
  norm : ℚ
  dumpMode : Bool
  current : Option Source
  abandoned : List Source
  served : List Source

namespace Slot

def empty : Slot := ⟨1, false, none, [], []⟩

def fill (slot : Slot) : Construction → Slot
  | .constructed source =>
    { slot with current := some source, abandoned := slot.abandoned ++ slot.current.toList }
  | .thrown | .exited => slot

def track (slot : Slot) : Call → Slot
  | .setPortID _ => slot
  | .setNorm norm => { slot with norm }
  | .setDumpMode dumpMode => { slot with dumpMode }
  | .setupDpdkSource streams answers =>
    slot.fill (dpdkSource slot.norm slot.dumpMode streams answers)
  | .setupUdpSource network => slot.fill (udpSource slot.norm network)
  | .teardownDpdkSource | .teardownUdpSource => { slot with current := none }
  | .getSamples _ => { slot with served := slot.served ++ slot.current.toList }

def after (calls : List Call) : Slot := calls.foldl track empty

end Slot

def Call.Uses : Call → Prop
  | .teardownDpdkSource | .teardownUdpSource | .getSamples _ => True
  | _ => False

/-- The sources in memory. -/
def live (objects : List Object) : Multiset Source :=
  ((objects.filter fun object => !object.deleted).map Object.source : List Source)

theorem live_append (objects : List Object) (source : Source) :
    live (objects ++ [⟨source, false⟩]) = live objects + {source} := by
  simp only [live, List.filter_append, List.map_append, ← Multiset.coe_add]
  rfl

theorem live_set {objects : List Object} {address : Nat} {source : Source}
    (found : objects[address]? = some ⟨source, false⟩) :
    live (objects.set address ⟨source, true⟩) + {source} = live objects := by
  induction objects generalizing address with
  | nil => simp at found
  | cons object rest ih =>
    cases address with
    | zero =>
      cases Option.some.inj found
      simp only [live, List.set_cons_zero, List.filter_cons, Bool.not_true, Bool.not_false,
        Bool.false_eq_true, if_false, if_true, List.map_cons]
      rw [← Multiset.cons_coe, add_comm, Multiset.singleton_add]
    | succ address =>
      have behind := ih found
      simp only [live, List.set_cons_succ, List.filter_cons] at behind ⊢
      split
      · simp only [List.map_cons, ← Multiset.cons_coe, Multiset.cons_add, behind]
      · exact behind

/-- The pointer and the heap stand for the slot. -/
structure Refines (process : Process) (slot : Slot) : Prop where
  norm : process.client.norm = slot.norm
  dumpMode : process.client.dumpMode = slot.dumpMode
  source : process.source = slot.current
  served : process.served = slot.served
  live : live process.objects =
    (slot.abandoned : Multiset Source) + (slot.current.toList : Multiset Source)

variable {process after : Process} {slot : Slot} {call : Call} {calls : List Call}

theorem start_refines : Refines start .empty := ⟨rfl, rfl, rfl, rfl, rfl⟩

theorem setup_refines (refines : Refines process slot) (initialized bound : Bool)
    (construction : Construction) : Refines (setup process initialized bound construction)
      (slot.fill construction) := by
  obtain ⟨norm, dumpMode, source, served, live⟩ := refines
  cases construction with
  | constructed made =>
    refine ⟨norm, dumpMode, ?_, served, ?_⟩
    · simp [setup, Slot.fill, Process.source]
    · simp only [setup, Slot.fill]
      rw [live_append, live, ← Multiset.coe_add]
      rfl
  | thrown => exact ⟨norm, dumpMode, source, served, live⟩
  | exited => exact ⟨norm, dumpMode, source, served, live⟩

/-- Where a source in use lies. -/
theorem source_found {source : Source} (held : process.source = some source) :
    ∃ address, process.client.sampleSource = some address ∧
      process.objects[address]? = some ⟨source, false⟩ := by
  obtain ⟨address, pointer, inside⟩ := Option.bind_eq_some_iff.mp held
  obtain ⟨⟨stored, deleted⟩, found, same⟩ := Option.bind_eq_some_iff.mp inside
  refine ⟨address, pointer, ?_⟩
  cases deleted with
  | true => simp at same
  | false =>
    cases Option.some.inj same
    exact found

theorem teardown_refines (refines : Refines process slot) {source : Source}
    (held : slot.current = some source) :
    Refines (teardown process) { slot with current := none } := by
  obtain ⟨norm, dumpMode, pointed, served, live⟩ := refines
  rw [held] at pointed
  obtain ⟨address, pointer, found⟩ := source_found pointed
  have inside : address < process.objects.length := (List.getElem?_eq_some_iff.mp found).1
  have gone : teardown process =
      { process with objects := process.objects.set address ⟨source, true⟩ } := by
    simp only [teardown, pointer, pointed]
  rw [gone]
  refine ⟨norm, dumpMode, ?_, served, ?_⟩
  · simp [Process.source, pointer, inside]
  · have parts := (live_set found).trans live
    rw [held] at parts
    have rest : SourceLifecycle.live (process.objects.set address ⟨source, true⟩) =
        (slot.abandoned : Multiset Source) := add_right_cancel parts
    rw [Option.toList_none, Multiset.coe_nil, add_zero]
    exact rest

/-- What one call does: it uses a source that is not there, or the process exits, or the
slot is followed. -/
inductive Performed (slot : Slot) (call : Call) (now : Process) : Prop where
  | misused (uses : call.Uses) (none_ : slot.current = none)
      (ending : now.ending = some .undefinedBehaviour)
  | exited (proper : ¬ (call.Uses ∧ slot.current = none)) (ending : now.ending = some .exited)
  | followed (proper : ¬ (call.Uses ∧ slot.current = none)) (ending : now.ending = none)
      (refines : Refines now (slot.track call))

theorem setup_performed (refines : Refines process slot) (running : process.ending = none)
    (initialized bound : Bool) (construction : Construction) (unused : ¬ call.Uses)
    (fills : slot.track call = slot.fill construction) :
    Performed slot call (setup process initialized bound construction) := by
  have proper : ¬ (call.Uses ∧ slot.current = none) := fun held => unused held.1
  have kept := setup_refines refines initialized bound construction
  rw [← fills] at kept
  cases construction with
  | constructed source => exact .followed proper running kept
  | thrown => exact .followed proper running kept
  | exited => exact .exited proper rfl

theorem teardown_performed (refines : Refines process slot) (running : process.ending = none)
    (uses : call.Uses) (empties : slot.track call = { slot with current := none }) :
    Performed slot call (teardown process) := by
  cases held : slot.current with
  | none =>
    have pointed : process.source = none := refines.source.trans held
    refine .misused uses held ?_
    simp only [teardown, pointed]
    cases process.client.sampleSource <;> rfl
  | some source =>
    have kept := teardown_refines refines held
    rw [← empties] at kept
    refine .followed (fun both => ?_) ?_ kept
    · rw [both.2] at held
      contradiction
    · obtain ⟨address, pointer, -⟩ := source_found (refines.source.trans held)
      simp only [teardown, pointer, refines.source.trans held, running]

theorem getSamples_performed (refines : Refines process slot) (running : process.ending = none)
    (recvFails : Bool) :
    Performed slot (.getSamples recvFails) (getSamples process recvFails) := by
  obtain ⟨norm, dumpMode, pointed, served, live⟩ := refines
  cases held : slot.current with
  | none => exact .misused trivial held (by simp only [getSamples, pointed, held])
  | some source =>
    have proper : ¬ ((Call.getSamples recvFails).Uses ∧ slot.current = none) := by
      rintro ⟨-, none_⟩
      rw [none_] at held
      contradiction
    have answered : Refines { process with served := process.served ++ [source] }
        (slot.track (.getSamples recvFails)) :=
      ⟨norm, dumpMode, pointed, by simp only [Slot.track, served, held, Option.toList_some], live⟩
    rw [held] at pointed
    cases source with
    | dpdk constructed mode =>
      simp only [getSamples, pointed]
      exact .followed proper running answered
    | udp parser =>
      simp only [getSamples, pointed]
      split
      · exact .exited proper rfl
      · exact .followed proper running answered

theorem perform_performed (refines : Refines process slot) (running : process.ending = none)
    (call : Call) : Performed slot call (perform process call) := by
  cases call with
  | setPortID portId =>
    exact .followed (fun both => both.1) running
      ⟨refines.norm, refines.dumpMode, refines.source, refines.served, refines.live⟩
  | setNorm norm =>
    exact .followed (fun both => both.1) running
      ⟨rfl, refines.dumpMode, refines.source, refines.served, refines.live⟩
  | setDumpMode value =>
    exact .followed (fun both => both.1) running
      ⟨refines.norm, rfl, refines.source, refines.served, refines.live⟩
  | setupDpdkSource streams answers =>
    refine setup_performed refines running true false _ id ?_
    rw [refines.norm, refines.dumpMode]
    rfl
  | setupUdpSource network =>
    refine setup_performed refines running false true _ id ?_
    rw [refines.norm]
    rfl
  | teardownDpdkSource => exact teardown_performed refines running trivial rfl
  | teardownUdpSource => exact teardown_performed refines running trivial rfl
  | getSamples recvFails => exact getSamples_performed refines running recvFails

theorem step_perform (taken : step process call = some after) :
    process.ending = none ∧ Possible process call ∧ after = perform process call := by
  unfold step at taken
  split at taken
  · rename_i enabled
    exact ⟨enabled.1, enabled.2, (Option.some.inj taken).symm⟩
  · contradiction

/-- A call that uses the source where the slot is empty. -/
def Misuses (slot : Slot) (calls : List Call) : Prop :=
  ∃ before call after, calls = before ++ call :: after ∧ call.Uses ∧
    (before.foldl Slot.track slot).current = none

theorem misuses_cons (slot : Slot) (call : Call) (rest : List Call) : Misuses slot (call :: rest) ↔
    (call.Uses ∧ slot.current = none) ∨ Misuses (slot.track call) rest := by
  constructor
  · rintro ⟨before, other, behind, parts, uses, none_⟩
    cases before with
    | nil =>
      cases parts
      exact .inl ⟨uses, none_⟩
    | cons first middle =>
      cases parts
      exact .inr ⟨middle, other, behind, rfl, uses, none_⟩
  · rintro (⟨uses, none_⟩ | ⟨before, other, behind, rfl, uses, none_⟩)
    · exact ⟨[], call, rest, rfl, uses, none_⟩
    · exact ⟨call :: before, other, behind, rfl, uses, none_⟩

theorem run_refines {last : Process} (refines : Refines process slot)
    (running : process.ending = none) (finished : run step process calls = some last) :
    (last.ending = some .undefinedBehaviour ↔ Misuses slot calls) ∧
    (last.ending = none → Refines last (calls.foldl Slot.track slot)) := by
  induction calls generalizing process slot with
  | nil =>
    cases Option.some.inj finished
    refine ⟨?_, fun _ => refines⟩
    rw [running]
    refine ⟨fun ended => by contradiction, ?_⟩
    rintro ⟨before, call, after, parts, -⟩
    simp at parts
  | cons call rest ih =>
    obtain ⟨middle, taken, remaining⟩ := (run_cons call).mp finished
    obtain ⟨-, -, rfl⟩ := step_perform taken
    have performed := perform_performed refines running call
    rw [misuses_cons, List.foldl_cons]
    -- A process that has ended makes no further call.
    have over_ (ended : (perform process call).ending ≠ none) :
        rest = [] ∧ last = perform process call := by
      cases rest with
      | nil => exact ⟨rfl, (Option.some.inj remaining).symm⟩
      | cons next others =>
        obtain ⟨state, more, -⟩ := (run_cons next).mp remaining
        exact absurd (step_perform more).1 ended
    cases performed with
    | misused uses none_ ending =>
      obtain ⟨rfl, rfl⟩ := over_ (by rw [ending]; exact Option.some_ne_none _)
      refine ⟨⟨fun _ => .inl ⟨uses, none_⟩, fun _ => ending⟩, fun alive => ?_⟩
      rw [ending] at alive
      contradiction
    | exited proper ending =>
      obtain ⟨rfl, rfl⟩ := over_ (by rw [ending]; exact Option.some_ne_none _)
      refine ⟨⟨fun ended => ?_, ?_⟩, fun alive => ?_⟩
      · rw [ending] at ended
        contradiction
      · rintro (misuse | ⟨before, other, behind, parts, -⟩)
        · exact absurd misuse proper
        · simp at parts
      · rw [ending] at alive
        contradiction
    | followed proper ending kept =>
      obtain ⟨exact_, refined⟩ := ih kept ending remaining
      exact ⟨exact_.trans (or_iff_right proper).symm, refined⟩

/-- In every run of calls the pointer is used without a source behind it exactly if a call
comes where the slot is empty. Otherwise each call of `getSamples` is served by the source
in the slot, made with the norm and dump mode of its setup, and in memory are that source
and those replaced without a teardown. -/
theorem source_lifecycle (finished : run step start calls = some process) :
    (process.ending = some .undefinedBehaviour ↔ Misuses .empty calls) ∧
    (process.ending = none → Refines process (.after calls)) :=
  run_refines start_refines rfl finished

def tornDown : List Call :=
  [.setupUdpSource ⟨3, 0⟩, .getSamples false, .teardownUdpSource, .getSamples false]

theorem torn_down_misused : ∃ process, run step start tornDown = some process ∧
    (process.ending = some .undefinedBehaviour ↔ Misuses .empty tornDown) ∧
    (process.ending = none → Refines process (.after tornDown)) :=
  ⟨_, rfl, @source_lifecycle _ tornDown rfl⟩

/-! ## Once in a process -/

open Program in
/-- Where the environment refuses, no source is constructed. -/
theorem dpdkSource_refused {norm : ℚ} {dumpMode : Bool} {streams : List Startup.StreamAttr}
    {answers : Startup.History → (call : Startup.Call) → call.Result}
    (refused : answers [] (.ealInit (ealArguments streams)) < (0 : Int)) :
    dpdkSource norm dumpMode streams answers = if norm = 0 then .thrown else .exited := by
  rw [dpdkSource, Startup.execution]
  by_cases zero : norm = 0
  · rw [zero, Startup.create_zero]
    rfl
  · have parsed : HrzrParser.create norm = .ok ⟨norm, zero⟩ := dif_neg zero
    have exits : run (recording answers) [] (Startup.setupEal (ealArguments streams)) =
        (.error (.rteExit "Invalid EAL arguments\n" []),
          [⟨.ealInit (ealArguments streams), answers [] (.ealInit (ealArguments streams))⟩]) := by
      rw [Startup.setupEal, Startup.dpdk, run_bind, run_request]
      simp only [recording]
      show run (recording answers) [_] (if answers [] (.ealInit (ealArguments streams)) < (0 : Int)
        then Startup.rteExit "Invalid EAL arguments\n" [] else pure () : Startup.DpdkCalls Unit) = _
      rw [if_pos refused]
      rfl
    have setUp : run (recording answers) [] (Startup.setupDpdk streams) = _ :=
      run_bind_error _ exits
    rw [Startup.create, parsed, Except.mapError, ofExcept_ok_bind, run_bind_error _ setUp,
      if_neg zero]

theorem udpSource_refused {norm : ℚ} {network : Network} (refused : network.bind = -1) :
    udpSource norm network = if norm = 0 then .thrown else .exited := by
  rw [udpSource]
  by_cases zero : norm = 0
  · rw [zero]
    rfl
  · have parsed : HrzrParser.create norm = .ok ⟨norm, zero⟩ := dif_neg zero
    simp only [parsed, refused, if_true, ite_self, if_neg zero]

theorem dpdkSource_isDpdk {norm : ℚ} {dumpMode : Bool} {streams : List Startup.StreamAttr}
    {answers : Startup.History → (call : Startup.Call) → call.Result} {source : Source}
    (constructed : dpdkSource norm dumpMode streams answers = .constructed source) :
    source.isDpdk = true := by
  unfold dpdkSource at constructed
  split at constructed
  · cases constructed
    rfl
  · contradiction
  · contradiction

theorem udpSource_isDpdk {norm : ℚ} {network : Network} {source : Source}
    (constructed : udpSource norm network = .constructed source) : source.isDpdk = false := by
  unfold udpSource at constructed
  split at constructed
  · contradiction
  · split at constructed
    · contradiction
    · split at constructed
      · contradiction
      · cases constructed
        rfl

/-- How many sources of a kind were ever constructed. -/
def ofKind (dpdk : Bool) (objects : List Object) : Nat :=
  (objects.map Object.source).countP fun source => source.isDpdk == dpdk

theorem ofKind_append (dpdk : Bool) (objects : List Object) (source : Source) :
    ofKind dpdk (objects ++ [⟨source, false⟩]) =
      ofKind dpdk objects + if source.isDpdk = dpdk then 1 else 0 := by
  simp [ofKind, List.countP_cons]

/-- What a kind of source is made from, and can be made from once only. -/
def Process.spent (process : Process) : Bool → Bool
  | true => process.ealInitialized
  | false => process.addressBound

def Call.setsUp : Call → Option Bool
  | .setupDpdkSource _ _ => some true
  | .setupUdpSource _ => some false
  | _ => none

/-- No more sources of a kind have been constructed than its means allow. -/
def Once (process : Process) : Prop :=
  ∀ dpdk, ofKind dpdk process.objects ≤ if process.spent dpdk then 1 else 0

/-- A setup whose means are spent constructs nothing. -/
theorem perform_spent {dpdk : Bool} (setsUp : call.setsUp = some dpdk)
    (spent : process.spent dpdk = true) (possible : Possible process call) :
    perform process call =
      if process.client.norm = 0 then process else { process with ending := some .exited } := by
  cases call with
  | setupDpdkSource streams answers =>
    cases setsUp
    simp only [perform, dpdkSource_refused (possible spent)]
    split <;> rfl
  | setupUdpSource network =>
    cases setsUp
    simp only [perform, udpSource_refused (possible spent)]
    split <;> rfl
  | setPortID _ | setNorm _ | setDumpMode _ | teardownDpdkSource | teardownUdpSource
  | getSamples _ => contradiction

theorem setup_spent (dpdk other : Bool) (source : Source) :
    (setup process dpdk (!dpdk) (.constructed source)).spent other =
      (process.spent other || dpdk == other) := by
  cases dpdk <;> cases other <;> rfl

theorem setup_once (once : Once process) {dpdk : Bool} {construction : Construction}
    (unspent : process.spent dpdk = false)
    (kind : ∀ {source}, construction = .constructed source → source.isDpdk = dpdk) :
    Once (setup process dpdk (!dpdk) construction) := by
  cases construction with
  | thrown => exact once
  | exited => exact once
  | constructed source =>
    intro other
    have bound := once other
    rw [setup_spent]
    simp only [setup, ofKind_append, kind rfl]
    by_cases same : dpdk = other
    · cases same
      rw [unspent] at bound
      rw [beq_self_eq_true, Bool.or_true, if_pos rfl, if_pos rfl]
      exact Nat.succ_le_succ bound
    · rw [beq_false_of_ne same, Bool.or_false, if_neg same]
      exact bound

/-- A call that is no setup keeps what was constructed and what is spent. -/
theorem perform_sources (unused : call.setsUp = none) :
    (perform process call).objects.map Object.source = process.objects.map Object.source ∧
    ∀ dpdk, (perform process call).spent dpdk = process.spent dpdk := by
  have torn : (teardown process).objects.map Object.source =
        process.objects.map Object.source ∧
      ∀ dpdk, (teardown process).spent dpdk = process.spent dpdk := by
    unfold teardown
    split
    · rename_i address source pointer held
      obtain ⟨found, same, stored⟩ := source_found held
      rw [pointer] at same
      cases same
      refine ⟨?_, fun dpdk => by cases dpdk <;> rfl⟩
      obtain ⟨inside, object⟩ := List.getElem?_eq_some_iff.mp stored
      have place : address < (process.objects.map Object.source).length := by
        simpa only [List.length_map] using inside
      calc (process.objects.set address ⟨source, true⟩).map Object.source
          = (process.objects.map Object.source).set address source := List.map_set ..
        _ = (process.objects.map Object.source).set address
              (process.objects.map Object.source)[address] := by
            rw [List.getElem_map, object]
        _ = process.objects.map Object.source := List.set_getElem_self place
    · exact ⟨rfl, fun dpdk => by cases dpdk <;> rfl⟩
  cases call with
  | setupDpdkSource _ _ | setupUdpSource _ => contradiction
  | setPortID _ | setNorm _ | setDumpMode _ => exact ⟨rfl, fun dpdk => by cases dpdk <;> rfl⟩
  | teardownDpdkSource | teardownUdpSource => exact torn
  | getSamples recvFails =>
    simp only [perform, getSamples]
    split
    · split <;> exact ⟨rfl, fun dpdk => by cases dpdk <;> rfl⟩
    · exact ⟨rfl, fun dpdk => by cases dpdk <;> rfl⟩
    · exact ⟨rfl, fun dpdk => by cases dpdk <;> rfl⟩

theorem step_once (taken : step process call = some after) (once : Once process) : Once after := by
  obtain ⟨-, possible, rfl⟩ := step_perform taken
  cases setsUp : call.setsUp with
  | some dpdk =>
    cases spent : process.spent dpdk with
    | true =>
      rw [perform_spent setsUp spent possible]
      split <;> exact once
    | false =>
      cases call with
      | setupDpdkSource streams answers =>
        cases setsUp
        exact setup_once once spent dpdkSource_isDpdk
      | setupUdpSource network =>
        cases setsUp
        exact setup_once once spent udpSource_isDpdk
      | setPortID _ | setNorm _ | setDumpMode _ | teardownDpdkSource | teardownUdpSource
      | getSamples _ => contradiction
  | none =>
    intro dpdk
    obtain ⟨sources, spent⟩ := @perform_sources process call setsUp
    rw [ofKind, sources, spent]
    exact once dpdk

/-- In every run each kind of source is constructed at most once. From then on a setup of
that kind ends the process, whether or not the source was torn down before; with the norm
zero it throws and changes nothing. -/
theorem set_up_once (finished : run step start calls = some process) (dpdk : Bool) :
    ofKind dpdk process.objects ≤ 1 ∧
    (ofKind dpdk process.objects = 1 → ∀ {call after}, call.setsUp = some dpdk →
      step process call = some after → after =
        if process.client.norm = 0 then process else { process with ending := some .exited }) := by
  have once : Once process := run_invariant (fun held taken => step_once taken held) finished
    (fun _ => Nat.zero_le _)
  have bound := once dpdk
  constructor
  · split at bound <;> omega
  · intro constructed call after setsUp taken
    obtain ⟨-, possible, rfl⟩ := step_perform taken
    refine perform_spent setsUp ?_ possible
    rw [constructed] at bound
    split at bound
    · assumption
    · omega

theorem torn_down_set_up_once :
    ∃ process, run step start [.setupUdpSource ⟨3, 0⟩, .teardownUdpSource] = some process ∧
      ofKind false process.objects ≤ 1 ∧
      (ofKind false process.objects = 1 → ∀ {call after}, call.setsUp = some false →
        step process call = some after → after =
          if process.client.norm = 0 then process else { process with ending := some .exited }) :=
  ⟨_, rfl, @set_up_once _ [.setupUdpSource ⟨3, 0⟩, .teardownUdpSource] rfl false⟩

end JerryDriver.SourceLifecycle
