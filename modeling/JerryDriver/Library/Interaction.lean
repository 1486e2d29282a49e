/-! Client programs that talk to a server by requests. A program is the tree of
its requests, so one definition serves sequential execution against a server and
statements about which requests a program can make at all. Responses depend on
the request; throwing is one of the ways a program ends. -/
namespace Interaction

/-- Return, throw, or make a request and continue with its response. -/
inductive Program (Req : Type) (Resp : Req → Type) (ε α : Type) where
  | returns (value : α)
  | throws (error : ε)
  | call (request : Req) (next : Resp request → Program Req Resp ε α)

variable {Req : Type} {Resp : Req → Type} {ε α β γ W : Type}

theorem except_bind_eq_ok {computed : Except ε α} {f : α → Except ε β} {result : β} :
    (computed >>= f) = .ok result ↔ ∃ value, computed = .ok value ∧ f value = .ok result := by
  cases computed with
  | ok value => exact ⟨fun same => ⟨value, rfl, same⟩, fun ⟨_, rfl, same⟩ => same⟩
  | error error =>
    constructor
    · intro same
      cases same
    · rintro ⟨value, failed, -⟩
      cases failed

namespace Program

def bind (f : α → Program Req Resp ε β) : Program Req Resp ε α → Program Req Resp ε β
  | .returns value => f value
  | .throws error => .throws error
  | .call request next => .call request fun response => bind f (next response)

instance : Monad (Program Req Resp ε) where
  pure := .returns
  bind program f := program.bind f

theorem bind_returns (program : Program Req Resp ε α) : program.bind .returns = program := by
  induction program with
  | returns value => rfl
  | throws error => rfl
  | call r next ih =>
    have same : (fun response => (next response).bind .returns) = next := funext ih
    rw [bind, same]

theorem bind_bind (program : Program Req Resp ε α) (f : α → Program Req Resp ε β)
    (g : β → Program Req Resp ε γ) :
    (program.bind f).bind g = program.bind fun value => (f value).bind g := by
  induction program with
  | returns value => rfl
  | throws error => rfl
  | call r next ih =>
    have same : (fun response => ((next response).bind f).bind g) =
        fun response => (next response).bind fun value => (f value).bind g := funext ih
    rw [bind, bind, bind, same]

instance : LawfulMonad (Program Req Resp ε) :=
  LawfulMonad.mk' _ bind_returns (fun _ _ => rfl) bind_bind

def request (r : Req) : Program Req Resp ε (Resp r) := .call r .returns

def ofExcept : Except ε α → Program Req Resp ε α
  | .ok value => .returns value
  | .error error => .throws error

theorem ofExcept_ok_bind (value : α) (f : α → Program Req Resp ε β) :
    ofExcept (.ok value) >>= f = f value := rfl

theorem ofExcept_bind (computed : Except ε α) (f : α → Except ε β) :
    (ofExcept (computed >>= f) : Program Req Resp ε β) =
      ofExcept computed >>= fun value => ofExcept (f value) := by
  cases computed <;> rfl

/-- Execute against a server whose answers may depend on, and change, its state. -/
def run (server : W → (r : Req) → Resp r × W) :
    W → Program Req Resp ε α → Except ε α × W
  | w, .returns value => (.ok value, w)
  | w, .throws error => (.error error, w)
  | w, .call r next => run server (server w r).2 (next (server w r).1)

/-- Every request the program can make, whatever the responses are, satisfies `P`. -/
def Requests (P : Req → Prop) : Program Req Resp ε α → Prop
  | .returns _ | .throws _ => True
  | .call r next => P r ∧ ∀ response, Requests P (next response)

variable {server : W → (r : Req) → Resp r × W} {w : W}

@[simp] theorem run_pure (value : α) :
    run server w (pure value : Program Req Resp ε α) = (.ok value, w) := rfl

@[simp] theorem run_throws (error : ε) :
    run server w (.throws error : Program Req Resp ε α) = (.error error, w) := rfl

@[simp] theorem run_request (r : Req) :
    run server w (request r : Program Req Resp ε (Resp r)) =
      (.ok (server w r).1, (server w r).2) := rfl

/-- Sequencing: an error ends the execution and keeps the server's state. -/
theorem run_bind (program : Program Req Resp ε α) (f : α → Program Req Resp ε β) :
    run server w (program >>= f) =
      match run server w program with
      | (.ok value, after) => run server after (f value)
      | (.error error, after) => (.error error, after) := by
  change run server w (program.bind f) = _
  induction program generalizing w with
  | returns value => rfl
  | throws error => rfl
  | call r next ih => exact ih (server w r).1

theorem run_bind_ok {program : Program Req Resp ε α} {value : α} {after : W}
    (f : α → Program Req Resp ε β) (ran : run server w program = (.ok value, after)) :
    run server w (program >>= f) = run server after (f value) := by
  rw [run_bind, ran]

theorem run_bind_error {program : Program Req Resp ε α} {error : ε} {after : W}
    (f : α → Program Req Resp ε β) (ran : run server w program = (.error error, after)) :
    run server w (program >>= f) = (.error error, after) := by
  rw [run_bind, ran]

@[simp] theorem run_ofExcept_bind (computed : Except ε α) (f : α → Program Req Resp ε β) :
    run server w (ofExcept computed >>= f) =
      match computed with
      | .ok value => run server w (f value)
      | .error error => (.error error, w) := by
  cases computed <;> rfl

theorem requests_bind {P : Req → Prop} {program : Program Req Resp ε α}
    {f : α → Program Req Resp ε β} (first : program.Requests P)
    (second : ∀ value, (f value).Requests P) : (program >>= f).Requests P := by
  change (program.bind f).Requests P
  induction program with
  | returns value => exact second value
  | throws error => trivial
  | call r next ih => exact ⟨first.1, fun response => ih response (first.2 response)⟩

theorem requests_request {P : Req → Prop} {r : Req} (holds : P r) :
    (request r : Program Req Resp ε (Resp r)).Requests P :=
  ⟨holds, fun _ => trivial⟩

/-- A relation between server states that every permitted request respects
holds between the states before and after a program of permitted requests. -/
theorem run_relation {P : Req → Prop} {R : W → W → Prop} (refl : ∀ w, R w w)
    (trans : ∀ {a b c}, R a b → R b c → R a c)
    (respects : ∀ w r, P r → R w (server w r).2) {program : Program Req Resp ε α}
    (permitted : program.Requests P) : R w (run server w program).2 := by
  induction program generalizing w with
  | returns value => exact refl w
  | throws error => exact refl w
  | call r next ih => exact trans (respects w r permitted.1) (ih _ (permitted.2 _))

/-- The requests of an execution, each with the state in which it reaches the server. -/
def trace (server : W → (r : Req) → Resp r × W) : W → Program Req Resp ε α → List (W × Req)
  | _, .returns _ | _, .throws _ => []
  | w, .call r next => (w, r) :: trace server (server w r).2 (next (server w r).1)

@[simp] theorem trace_pure (value : α) :
    trace server w (pure value : Program Req Resp ε α) = [] := rfl

@[simp] theorem trace_throws (error : ε) :
    trace server w (.throws error : Program Req Resp ε α) = [] := rfl

theorem trace_bind (program : Program Req Resp ε α) (f : α → Program Req Resp ε β) :
    trace server w (program >>= f) = trace server w program ++
      match run server w program with
      | (.ok value, after) => trace server after (f value)
      | (.error _, _) => [] := by
  change trace server w (program.bind f) = _
  induction program generalizing w with
  | returns value => rfl
  | throws error => rfl
  | call r next ih => exact congrArg ((w, r) :: ·) (ih (server w r).1)

theorem trace_bind_ok {program : Program Req Resp ε α} {value : α} {after : W}
    (f : α → Program Req Resp ε β) (ran : run server w program = (.ok value, after)) :
    trace server w (program >>= f) = trace server w program ++ trace server after (f value) := by
  rw [trace_bind, ran]

theorem trace_bind_error {program : Program Req Resp ε α} {error : ε} {after : W}
    (f : α → Program Req Resp ε β) (ran : run server w program = (.error error, after)) :
    trace server w (program >>= f) = trace server w program := by
  rw [trace_bind, ran, List.append_nil]

end Program
end Interaction
