import Mathlib.Data.List.Chain
import Mathlib.Data.Nat.ModEq
import Mathlib.Tactic.Ring

/-! Serial numbers of a stream whose elements are numbered consecutively modulo
a period. Two received elements that lie at most one period apart determine the
number of elements missing between them, and this is as much as numbers modulo
the period can determine. -/
namespace SerialNumber

/-- The number carried by the element at a position of the stream. -/
def number (period start position : Nat) : Nat := (start + position) % period

/-- How many numbers are skipped when `next` follows `previous`. -/
def gap (period previous next : Nat) : Nat := (next + period - previous - 1) % period

variable {period start p q : Nat}

theorem number_lt (positive : 0 < period) : number period start p < period :=
  Nat.mod_lt _ positive

theorem number_later (later : p ≤ q) :
    number period start q = (number period start p + (q - p)) % period := by
  rw [number, number, Nat.mod_add_mod, Nat.add_assoc, Nat.add_sub_cancel' later]

/-- The skipped numbers are exactly the elements missing in between, as long as
fewer than a whole period of them is missing. -/
theorem gap_number (positive : 0 < period) (later : p < q) (near : q - p ≤ period) :
    gap period (number period start p) (number period start q) = q - p - 1 := by
  have bound : number period start p < period := number_lt positive
  rw [number_later (Nat.le_of_lt later), gap]
  generalize number period start p = previous at bound
  rcases Nat.lt_or_ge (previous + (q - p)) period with inside | wrapped
  · rw [Nat.mod_eq_of_lt inside,
      show previous + (q - p) + period - previous - 1 = q - p - 1 + period by omega,
      Nat.add_mod_right, Nat.mod_eq_of_lt (by omega)]
  · rw [Nat.mod_eq_sub_mod wrapped,
      Nat.mod_eq_of_lt (show previous + (q - p) - period < period by omega),
      show previous + (q - p) - period + period - previous - 1 = q - p - 1 by omega,
      Nat.mod_eq_of_lt (by omega)]

/-- Nothing is missing exactly when the next number is the successor, with the
last number of the period followed by zero. -/
theorem gap_eq_zero_iff {previous next : Nat} (previousBound : previous < period)
    (nextBound : next < period) :
    gap period previous next = 0 ↔
      next = previous + 1 ∨ (previous + 1 = period ∧ next = 0) := by
  rw [gap]
  rcases Nat.lt_or_ge previous next with forward | backward
  · rw [show next + period - previous - 1 = next - previous - 1 + period by omega,
      Nat.add_mod_right, Nat.mod_eq_of_lt (by omega)]
    omega
  · rw [Nat.mod_eq_of_lt (by omega)]
    omega

theorem gap_self {previous : Nat} (bound : previous < period) :
    gap period previous previous = period - 1 := by
  rw [gap, show previous + period - previous - 1 = period - 1 by omega,
    Nat.mod_eq_of_lt (by omega)]

theorem gap_of_lt {previous next : Nat} (forward : previous < next) (bound : next < period) :
    gap period previous next = next - previous - 1 := by
  rw [gap, show next + period - previous - 1 = next - previous - 1 + period by omega,
    Nat.add_mod_right, Nat.mod_eq_of_lt (by omega)]

theorem gap_of_gt {previous next : Nat} (backward : next < previous) (bound : previous < period) :
    gap period previous next = next + period - previous - 1 := by
  rw [gap, Nat.mod_eq_of_lt (by omega)]

/-! ## A stream with several readers -/

section Readers

variable {α : Type} (numberOf : α → Nat) (own : α → Bool)

/-- Every element carries the number after its predecessor's. -/
def Consecutive (period : Nat) (elements : List α) : Prop :=
  elements.IsChain fun a b => numberOf b = (numberOf a + 1) % period

instance (period : Nat) (elements : List α) : Decidable (Consecutive numberOf period elements) :=
  inferInstanceAs (Decidable (List.IsChain _ elements))

/-- The elements that one reader gets, each with how many the others took since its last. -/
def readBy : Nat → List α → List (Nat × α)
  | _, [] => []
  | taken, a :: rest => if own a then (taken, a) :: readBy 0 rest else readBy (taken + 1) rest

theorem readBy_map (taken : Nat) (elements : List α) :
    (readBy own taken elements).map Prod.snd = elements.filter own := by
  induction elements generalizing taken with
  | nil => rfl
  | cons a rest ih =>
    rw [readBy, List.filter_cons]
    split
    · rw [List.map_cons, ih]
    · exact ih _

variable {numberOf own}

theorem readBy_chain_from {last : Nat × α} {taken : Nat} {elements : List α}
    (consecutive : Consecutive numberOf period elements)
    (follows : ∀ a ∈ elements.head?, numberOf a = (numberOf last.2 + taken + 1) % period) :
    (last :: readBy own taken elements).IsChain fun a b =>
      numberOf b.2 = (numberOf a.2 + b.1 + 1) % period := by
  induction elements generalizing last taken with
  | nil => exact .singleton _
  | cons a rest ih =>
    have here : numberOf a = (numberOf last.2 + taken + 1) % period := follows a rfl
    obtain ⟨next, later⟩ := List.isChain_cons.mp consecutive
    rw [readBy]
    split
    · refine List.isChain_cons_cons.mpr ⟨here, ih later fun b first => ?_⟩
      exact next b first
    · refine ih later fun b first => ?_
      rw [next b first, here, Nat.mod_add_mod]
      rfl

/-- A reader can tell from two numbers in a row how many elements the others took, up to
whole periods. -/
theorem readBy_chain (taken : Nat) {elements : List α}
    (consecutive : Consecutive numberOf period elements) :
    (readBy own taken elements).IsChain fun a b =>
      numberOf b.2 = (numberOf a.2 + b.1 + 1) % period := by
  induction elements generalizing taken with
  | nil => exact .nil
  | cons a rest ih =>
    obtain ⟨next, later⟩ := List.isChain_cons.mp consecutive
    rw [readBy]
    split
    · exact readBy_chain_from later fun b first => next b first
    · exact ih _ later

theorem readBy_numbers {taken : Nat} {elements : List α} {i : Nat} {a b : Nat × α}
    (consecutive : Consecutive numberOf period elements)
    (first : (readBy own taken elements)[i]? = some a)
    (second : (readBy own taken elements)[i + 1]? = some b) :
    numberOf b.2 = (numberOf a.2 + b.1 + 1) % period := by
  obtain ⟨_, rfl⟩ := List.getElem?_eq_some_iff.mp first
  obtain ⟨within, rfl⟩ := List.getElem?_eq_some_iff.mp second
  exact List.isChain_iff_getElem.mp (readBy_chain taken consecutive) i within

end Readers

end SerialNumber
