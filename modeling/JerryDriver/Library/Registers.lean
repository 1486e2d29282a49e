import Mathlib.Data.List.Basic

/-! Registers with write commands. A command says for each register the value that it
sets there, if any, so a command may set several registers or none. After a list of
commands a register holds the last value set, or the one it had. -/
namespace Registers

variable {Register Command : Type} {Value : Register → Type}

/-- The last value that a list of commands sets in a register. -/
def lastSet (sets : Command → (r : Register) → Option (Value r)) (r : Register) :
    List Command → Option (Value r)
  | [] => none
  | command :: rest => (lastSet sets r rest).or (sets command r)

def store (sets : Command → (r : Register) → Option (Value r)) (file : (r : Register) → Value r)
    (command : Command) : (r : Register) → Value r :=
  fun r => (sets command r).getD (file r)

variable {sets : Command → (r : Register) → Option (Value r)} {r : Register}

/-- Storing commands one after the other leaves the last value set. -/
theorem foldl_store (file : (r : Register) → Value r) (commands : List Command) :
    commands.foldl (store sets) file r = (lastSet sets r commands).getD (file r) := by
  induction commands generalizing file with
  | nil => rfl
  | cons command rest ih =>
    rw [List.foldl_cons, ih, lastSet, store]
    cases lastSet sets r rest <;> rfl

end Registers
