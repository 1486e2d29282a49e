import Mathlib.Data.List.Basic
import Mathlib.Logic.Function.Basic

/-! Runs of a guarded step function. A label is enabled in a state exactly when
the step function returns a successor, so the guards used in proofs are the
guards used in replaying a concrete schedule. A run is the list of its labels;
`visits` recovers the intermediate states, which is what conditions on the state
before a step quantify over. -/
namespace Transition

variable {S L A : Type} {step : S → L → Option S} {s t : S} {labels : List L}

/-- Perform the labels in order; a label that is not enabled ends the run. -/
def run (step : S → L → Option S) : S → List L → Option S
  | s, [] => some s
  | s, label :: rest => (step s label).bind fun t => run step t rest

/-- The states a run leaves, each with the label it leaves by. -/
def visits (step : S → L → Option S) : S → List L → List (S × L)
  | _, [] => []
  | s, label :: rest => (s, label) :: (step s label).elim [] fun t => visits step t rest

@[simp] theorem run_nil : run step s [] = some s := rfl

theorem run_cons (label : L) : run step s (label :: labels) = some t ↔
    ∃ middle, step s label = some middle ∧ run step middle labels = some t := by
  simp only [run, Option.bind_eq_some_iff]

theorem run_append {first second : List L} {middle : S} (reached : run step s first = some middle) :
    run step s (first ++ second) = run step middle second := by
  induction first generalizing s with
  | nil =>
    cases Option.some.inj reached
    rfl
  | cons label rest ih =>
    obtain ⟨next, enabled, remaining⟩ := (run_cons label).mp reached
    rw [List.cons_append, run, enabled, Option.bind_some, ih remaining]

theorem visits_cons {label : L} {rest : List L} (enabled : step s label = some t) :
    visits step s (label :: rest) = (s, label) :: visits step t rest := by
  simp only [visits, enabled, Option.elim_some]

/-- Invariants may use a condition that the schedule meets at every visited
pair; with the condition `True` this is the usual invariant rule. -/
theorem run_invariant_of_visits {P : S → Prop} (G : S → L → Prop)
    (preserves : ∀ {s label t}, P s → G s label → step s label = some t → P t)
    (finished : run step s labels = some t)
    (guarded : ∀ visit ∈ visits step s labels, G visit.1 visit.2) (initial : P s) : P t := by
  induction labels generalizing s with
  | nil =>
    cases Option.some.inj finished
    exact initial
  | cons label rest ih =>
    obtain ⟨middle, enabled, remaining⟩ := (run_cons label).mp finished
    rw [visits_cons enabled] at guarded
    exact ih remaining (fun visit member => guarded visit (List.mem_cons_of_mem _ member))
      (preserves initial (guarded (s, label) List.mem_cons_self) enabled)

theorem run_invariant {P : S → Prop}
    (preserves : ∀ {s label t}, P s → step s label = some t → P t)
    (finished : run step s labels = some t) (initial : P s) : P t :=
  run_invariant_of_visits (fun _ _ => True) (fun held _ enabled => preserves held enabled)
    finished (fun _ _ => trivial) initial

/-- An observation that every step extends by a contribution computed from the
state and label before it is, after a run, extended by all contributions in order. -/
theorem run_observation {observe : S → List A} {contribution : S → L → List A}
    (grows : ∀ {s label t}, step s label = some t →
      observe t = observe s ++ contribution s label)
    (finished : run step s labels = some t) :
    observe t = observe s ++
      (visits step s labels).flatMap fun visit => contribution visit.1 visit.2 := by
  induction labels generalizing s with
  | nil =>
    cases Option.some.inj finished
    simp [visits]
  | cons label rest ih =>
    obtain ⟨middle, enabled, remaining⟩ := (run_cons label).mp finished
    rw [ih remaining, grows enabled, visits_cons enabled, List.flatMap_cons, List.append_assoc]

/-- A rank that counted labels lower and no label raises bounds how many of them come. -/
theorem run_rank {P : S → Prop} {counted : L → Prop} [DecidablePred counted] {rank : S → Nat}
    (preserves : ∀ {s label t}, P s → step s label = some t → P t)
    (falls : ∀ {s label t}, P s → step s label = some t →
      (if counted label then 1 else 0) + rank t ≤ rank s)
    (finished : run step s labels = some t) (initial : P s) :
    (labels.filter counted).length + rank t ≤ rank s := by
  induction labels generalizing s with
  | nil =>
    cases Option.some.inj finished
    exact Nat.le_of_eq (Nat.zero_add _)
  | cons label rest ih =>
    obtain ⟨middle, enabled, remaining⟩ := (run_cons label).mp finished
    have later := ih remaining (preserves initial enabled)
    have now := falls initial enabled
    rw [List.filter_cons]
    by_cases counts : counted label
    · simp only [counts, decide_true, if_true, List.length_cons] at now ⊢
      omega
    · simp only [counts, decide_false, Bool.false_eq_true, if_false] at now ⊢
      omega

/-! ## One component of a system -/

/-- A component is followed by a system that takes the component's own steps only, if these
depend on nothing but what the relation tells and the steps of the others keep it. -/
theorem run_projection {R : S → S → Prop} {own : L → Prop} [DecidablePred own]
    (follows : ∀ {s label t alone}, R s alone → own label → step s label = some t →
      ∃ next, step alone label = some next ∧ R t next)
    (spares : ∀ {s label t alone}, R s alone → ¬ own label → step s label = some t → R t alone)
    (finished : run step s labels = some t) {alone : S} (related : R s alone) :
    ∃ last, run step alone (labels.filter own) = some last ∧ R t last := by
  induction labels generalizing s alone with
  | nil =>
    cases Option.some.inj finished
    exact ⟨alone, rfl, related⟩
  | cons label rest ih =>
    obtain ⟨middle, enabled, remaining⟩ := (run_cons label).mp finished
    by_cases mine : own label
    · obtain ⟨next, taken, kept⟩ := follows related mine enabled
      obtain ⟨last, reached, ends⟩ := ih remaining kept
      refine ⟨last, ?_, ends⟩
      simp only [List.filter_cons, decide_eq_true mine, if_true]
      exact (run_cons label).mpr ⟨next, taken, reached⟩
    · obtain ⟨last, reached, ends⟩ := ih remaining (spares related mine enabled)
      refine ⟨last, ?_, ends⟩
      simpa only [List.filter_cons, decide_eq_false mine, Bool.false_eq_true, if_false]
        using reached

/-! ## One system simulated by another -/

/-- Two systems stay alike in every component when both change one and these are alike. -/
theorem related_update {I B : Type} [DecidableEq I] {R : I → A → B → Prop} {f : I → A}
    {g : I → B} {i : I} {a : A} {b : B} (others : ∀ j, R j (f j) (g j)) (own : R i a b) (j : I) :
    R j (Function.update f i a j) (Function.update g i b j) := by
  by_cases same : j = i
  · subst same
    rw [Function.update_self, Function.update_self]
    exact own
  · rw [Function.update_of_ne same, Function.update_of_ne same]
    exact others j

/-- What the last state of a run promises, if steps back keep it, its first state promises. -/
theorem run_earlier {Promises : S → Prop}
    (earlier : ∀ {s label t}, Promises t → step s label = some t → Promises s)
    (finished : run step s labels = some t) (promises : Promises t) : Promises s := by
  induction labels generalizing s with
  | nil =>
    cases Option.some.inj finished
    exact promises
  | cons label rest ih =>
    obtain ⟨middle, enabled, remaining⟩ := (run_cons label).mp finished
    exact earlier (ih remaining) enabled

/-- Every label is matched by some labels of the other system. Where the other system acts
ahead of a step, the later states must promise that what it needs will come. -/
theorem run_simulated {T M : Type} {other : T → M → Option T} {R : S → T → Prop}
    {Promises : S → Prop} (image : L → List M)
    (earlier : ∀ {s label t}, Promises t → step s label = some t → Promises s)
    (simulates : ∀ {s label t x}, R s x → Promises s → Promises t → step s label = some t →
      ∃ y, run other x (image label) = some y ∧ R t y)
    (finished : run step s labels = some t) (promises : Promises t) {x : T} (related : R s x) :
    ∃ y, run other x (labels.flatMap image) = some y ∧ R t y := by
  induction labels generalizing s x with
  | nil =>
    cases Option.some.inj finished
    exact ⟨x, rfl, related⟩
  | cons label rest ih =>
    obtain ⟨middle, enabled, remaining⟩ := (run_cons label).mp finished
    have later : Promises middle := run_earlier earlier remaining promises
    obtain ⟨z, matched, kept⟩ := simulates related (earlier later enabled) later enabled
    obtain ⟨y, reached, ends⟩ := ih remaining kept
    exact ⟨y, (run_append matched).trans reached, ends⟩

/-- A run is a run of the other system if that has labels for each of its steps. -/
theorem run_refined {T M : Type} {other : T → M → Option T} {R : S → T → Prop}
    (refines : ∀ {s label t x}, R s x → step s label = some t →
      ∃ finer y, run other x finer = some y ∧ R t y)
    (finished : run step s labels = some t) {x : T} (related : R s x) :
    ∃ finer y, run other x finer = some y ∧ R t y := by
  induction labels generalizing s x with
  | nil =>
    cases Option.some.inj finished
    exact ⟨[], x, rfl, related⟩
  | cons label rest ih =>
    obtain ⟨middle, enabled, remaining⟩ := (run_cons label).mp finished
    obtain ⟨first, z, matched, kept⟩ := refines related enabled
    obtain ⟨second, y, reached, ends⟩ := ih remaining kept
    exact ⟨first ++ second, y, (run_append matched).trans reached, ends⟩

/-! ## Loops over a list whose body can stop -/

section Loop

variable {T : Type} {body : S → A → S} {Stopped : S → Prop}

theorem foldl_stopped (halts : ∀ {s} a, Stopped s → body s a = s) (stopped : Stopped s)
    (inputs : List A) : inputs.foldl body s = s := by
  induction inputs with
  | nil => rfl
  | cons a rest ih => rw [List.foldl_cons, halts a stopped, ih]

/-- An observation that the body advances whenever it has not stopped is advanced by the
inputs handled: a prefix of all, and the whole if the loop never stops. -/
theorem foldl_handled (body : S → A → S) (Stopped : S → Prop) (observe : S → T)
    (track : T → A → T) (halts : ∀ {s} a, Stopped s → body s a = s)
    (advances : ∀ {s} a, ¬ Stopped s → observe (body s a) = track (observe s) a)
    (s : S) (inputs : List A) : ∃ handled, handled <+: inputs ∧
      observe (inputs.foldl body s) = handled.foldl track (observe s) ∧
      (¬ Stopped (inputs.foldl body s) → handled = inputs) := by
  induction inputs generalizing s with
  | nil => exact ⟨[], List.nil_prefix, rfl, fun _ => rfl⟩
  | cons a rest ih =>
    by_cases stopped : Stopped s
    · rw [foldl_stopped halts stopped]
      exact ⟨[], List.nil_prefix, rfl, fun running => absurd stopped running⟩
    · obtain ⟨handled, part, observed, whole⟩ := ih (body s a)
      refine ⟨a :: handled, (List.prefix_cons_inj a).mpr part, ?_, fun running => ?_⟩
      · rw [List.foldl_cons, observed, advances a stopped, List.foldl_cons]
      · rw [whole running]

end Loop

end Transition
