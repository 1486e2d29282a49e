import JerryDriver.Library.Interaction

/-! Rules for the order of requests. A monitor goes from state to state with the requests
of a program and their responses, and says which request may come next. A program keeps to
it when this is so whatever the responses are. The rules follow the way programs are built;
what they prove of a program holds of each of its recorded executions. -/
namespace Interaction

abbrev Event (Req : Type) (Resp : Req → Type) := (r : Req) × Resp r

structure Monitor (S Req : Type) (Resp : Req → Type) where
  Allows : S → Req → Prop
  next : S → (r : Req) → Resp r → S

variable {S Req : Type} {Resp : Req → Type} {ε α β : Type}

namespace Monitor

variable (monitor : Monitor S Req Resp)

def follow (s : S) (history : List (Event Req Resp)) : S :=
  history.foldl (fun s event => monitor.next s event.1 event.2) s

/-- Every request of the history comes in a state that allows it. -/
def Accepts (s : S) : List (Event Req Resp) → Prop
  | [] => True
  | event :: rest =>
    monitor.Allows s event.1 ∧ Accepts (monitor.next s event.1 event.2) rest

variable {monitor} {s : S}

theorem follow_cons (event : Event Req Resp) (rest : List (Event Req Resp)) :
    monitor.follow s (event :: rest) =
      monitor.follow (monitor.next s event.1 event.2) rest := rfl

theorem Accepts.append {first second : List (Event Req Resp)} (begins : monitor.Accepts s first)
    (goesOn : monitor.Accepts (monitor.follow s first) second) :
    monitor.Accepts s (first ++ second) := by
  induction first generalizing s with
  | nil => exact goesOn
  | cons event rest ih => exact ⟨begins.1, ih begins.2 goesOn⟩

/-- What a state allows may be read off the history before each of its requests. -/
theorem Accepts.allows {before after : List (Event Req Resp)} {event : Event Req Resp}
    (accepts : monitor.Accepts s (before ++ event :: after)) :
    monitor.Allows (monitor.follow s before) event.1 := by
  induction before generalizing s with
  | nil => exact accepts.1
  | cons first rest ih => exact ih accepts.2

/-- A rank that every allowed request lowers bounds how many can still come. -/
theorem Accepts.length_le {rank : S → Nat} {history : List (Event Req Resp)}
    (falls : ∀ {s} r response, monitor.Allows s r → rank (monitor.next s r response) < rank s)
    (accepts : monitor.Accepts s history) :
    history.length + rank (monitor.follow s history) ≤ rank s := by
  induction history generalizing s with
  | nil => exact Nat.le_of_eq (Nat.zero_add _)
  | cons event rest ih =>
    have later := ih accepts.2
    have lower := falls event.1 event.2 accepts.1
    rw [follow_cons, List.length_cons]
    omega

end Monitor

namespace Program

/-- Whatever the responses, each request comes in a state that allows it, and where the
program ends its value or error stands in the given relation to the state. -/
def Keeps (monitor : Monitor S Req Resp) (Returns : α → S → Prop) (Throws : ε → S → Prop)
    (s : S) : Program Req Resp ε α → Prop
  | .returns value => Returns value s
  | .throws error => Throws error s
  | .call r next => monitor.Allows s r ∧
      ∀ response, Keeps monitor Returns Throws (monitor.next s r response) (next response)

variable {monitor : Monitor S Req Resp} {Returns : α → S → Prop} {Throws : ε → S → Prop} {s : S}

theorem keeps_pure {value : α} (returns : Returns value s) :
    (pure value : Program Req Resp ε α).Keeps monitor Returns Throws s := returns

theorem keeps_throws {error : ε} (throws : Throws error s) :
    (.throws error : Program Req Resp ε α).Keeps monitor Returns Throws s := throws

theorem keeps_bind {program : Program Req Resp ε α} {f : α → Program Req Resp ε β}
    {Returns : β → S → Prop}
    (first : program.Keeps monitor (fun value s => (f value).Keeps monitor Returns Throws s)
      Throws s) : (program >>= f).Keeps monitor Returns Throws s := by
  change (program.bind f).Keeps monitor Returns Throws s
  induction program generalizing s with
  | returns value => exact first
  | throws error => exact first
  | call r next ih => exact ⟨first.1, fun response => ih response (first.2 response)⟩

theorem keeps_request_bind {r : Req} {f : Resp r → Program Req Resp ε β}
    {Returns : β → S → Prop} (allowed : monitor.Allows s r)
    (goesOn : ∀ response,
      (f response).Keeps monitor Returns Throws (monitor.next s r response)) :
    (request r >>= f).Keeps monitor Returns Throws s :=
  keeps_bind ⟨allowed, goesOn⟩

theorem keeps_mono {program : Program Req Resp ε α} {Returns' : α → S → Prop}
    {Throws' : ε → S → Prop} (keeps : program.Keeps monitor Returns Throws s)
    (returns : ∀ {value s}, Returns value s → Returns' value s)
    (throws : ∀ {error s}, Throws error s → Throws' error s) :
    program.Keeps monitor Returns' Throws' s := by
  induction program generalizing s with
  | returns value => exact returns keeps
  | throws error => exact throws keeps
  | call r next ih => exact ⟨keeps.1, fun response => ih response (keeps.2 response)⟩

/-- Requests that are allowed and leave the monitor where it is may come in any number. -/
theorem keeps_of_requests {P : Req → Prop} {program : Program Req Resp ε α}
    (permitted : program.Requests P) (allowed : ∀ r, P r → monitor.Allows s r)
    (stays : ∀ r response, P r → monitor.next s r response = s) :
    program.Keeps monitor (fun _ after => after = s) (fun _ after => after = s) s := by
  induction program with
  | returns value => rfl
  | throws error => rfl
  | call r next ih =>
    refine ⟨allowed r permitted.1, fun response => ?_⟩
    rw [stays r response permitted.1]
    exact ih response (permitted.2 response)

/-! ## Executions -/

/-- A server that may answer as it likes, knowing all that went before, and is recorded. -/
def recording (answers : List (Event Req Resp) → (r : Req) → Resp r)
    (history : List (Event Req Resp)) (r : Req) : Resp r × List (Event Req Resp) :=
  (answers history r, history ++ [⟨r, answers history r⟩])

def Ended (Returns : α → S → Prop) (Throws : ε → S → Prop) (s : S) : Except ε α → Prop
  | .ok value => Returns value s
  | .error error => Throws error s

/-- An execution extends the record by a history that the monitor accepts. -/
theorem Keeps.run {program : Program Req Resp ε α}
    (keeps : program.Keeps monitor Returns Throws s)
    (answers : List (Event Req Resp) → (r : Req) → Resp r) (record : List (Event Req Resp)) :
    ∃ history, (program.run (recording answers) record).2 = record ++ history ∧
      monitor.Accepts s history ∧
      Ended Returns Throws (monitor.follow s history)
        (program.run (recording answers) record).1 := by
  induction program generalizing s record with
  | returns value => exact ⟨[], (List.append_nil record).symm, trivial, keeps⟩
  | throws error => exact ⟨[], (List.append_nil record).symm, trivial, keeps⟩
  | call r next ih =>
    obtain ⟨history, recorded, accepted, ended⟩ := ih (answers record r)
      (keeps.2 (answers record r)) (record ++ [⟨r, answers record r⟩])
    refine ⟨⟨r, answers record r⟩ :: history, ?_, ⟨keeps.1, accepted⟩, ended⟩
    exact recorded.trans (List.append_assoc ..)

end Program
end Interaction
