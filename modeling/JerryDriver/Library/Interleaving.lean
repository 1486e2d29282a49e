import JerryDriver.Library.Interaction
import JerryDriver.Library.Transition
import Mathlib.Logic.Function.Basic

/-! Parties that share a server. Each works off a list of jobs, one program after the
other and whatever they return or throw. A step is one request of one party, or its
going on to the next job; the schedule says whose turn it is. -/
namespace Interleaving
open Interaction

/-- The job being done, with what is left of its program, and the jobs to come. -/
structure Party (Job Req : Type) (Resp : Req → Type) (ε α : Type) where
  running : Option (Job × Program Req Resp ε α)
  jobs : List Job

structure Config (ι W Job Req : Type) (Resp : Req → Type) (ε α : Type) where
  world : W
  parties : ι → Party Job Req Resp ε α

variable {ι W Job Req : Type} {Resp : Req → Type} {ε α : Type}

def Party.Finished (party : Party Job Req Resp ε α) : Prop :=
  party.running = none ∧ party.jobs = []

/-- The jobs that a party still has requests to make for, or may have. -/
def Party.pending (party : Party Job Req Resp ε α) : List Job :=
  match party.running with
  | some (job, .call _ _) => job :: party.jobs
  | _ => party.jobs

def start (world : W) (jobs : ι → List Job) : Config ι W Job Req Resp ε α :=
  ⟨world, fun i => ⟨none, jobs i⟩⟩

section Steps

variable [DecidableEq ι] (code : ι → Job → Program Req Resp ε α)
  (server : W → (r : Req) → Resp r × W) (config : Config ι W Job Req Resp ε α) (i : ι)

def Config.put (party : Party Job Req Resp ε α) (world : W) : Config ι W Job Req Resp ε α :=
  ⟨world, Function.update config.parties i party⟩

/-- The next step of a party; there is none once it has finished. -/
def step : Option (Config ι W Job Req Resp ε α) :=
  match config.parties i with
  | ⟨none, []⟩ => none
  | ⟨none, job :: jobs⟩ => some (config.put i ⟨some (job, code i job), jobs⟩ config.world)
  | ⟨some (job, .call r next), jobs⟩ =>
    let (response, world) := server config.world r
    some (config.put i ⟨some (job, next response), jobs⟩ world)
  | ⟨some (_, .returns _), jobs⟩ | ⟨some (_, .throws _), jobs⟩ =>
    some (config.put i ⟨none, jobs⟩ config.world)

inductive Move : Config ι W Job Req Resp ε α → Prop where
  | begins (job : Job) (jobs : List Job) (idle : config.parties i = ⟨none, job :: jobs⟩) :
      Move (config.put i ⟨some (job, code i job), jobs⟩ config.world)
  | requests (job : Job) (r : Req) (next : Resp r → Program Req Resp ε α) (jobs : List Job)
      (running : config.parties i = ⟨some (job, .call r next), jobs⟩) :
      Move (config.put i ⟨some (job, next (server config.world r).1), jobs⟩
        (server config.world r).2)
  | ends (job : Job) (program : Program Req Resp ε α) (jobs : List Job)
      (running : config.parties i = ⟨some (job, program), jobs⟩)
      (halts : ∀ r next, program ≠ .call r next) :
      Move (config.put i ⟨none, jobs⟩ config.world)

variable {code server config i}

theorem step_move {after : Config ι W Job Req Resp ε α}
    (taken : step code server config i = some after) : Move code server config i after := by
  unfold step at taken
  split at taken
  · contradiction
  · rename_i job jobs idle
    cases taken
    exact .begins job jobs idle
  · rename_i job r next jobs running
    cases taken
    exact .requests job r next jobs running
  · rename_i job value jobs running
    cases taken
    refine .ends job _ jobs running ?_
    intro r next same
    contradiction
  · rename_i job error jobs running
    cases taken
    refine .ends job _ jobs running ?_
    intro r next same
    contradiction

end Steps
end Interleaving
