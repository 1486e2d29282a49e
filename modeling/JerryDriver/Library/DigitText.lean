import Mathlib.Data.Nat.Digits.Defs

/-! Numbers as text. Reading digits as they were written, with any number of zeros in
front, gives the number back, so padded digits tell all numbers apart. -/
namespace JerryDriver.DigitText

/-- From ten on digits are small letters. -/
def digitValue (c : Char) : Nat := if c.isDigit then c.toNat - 48 else c.toNat - 87

def value (base : Nat) (digits : List Char) : Nat :=
  digits.foldl (fun value c => base * value + digitValue c) 0

variable {base width : Nat}

private theorem digitValue_written : ∀ d : Fin 16, digitValue (Nat.digitChar d) = d := by decide

theorem value_concat (digits : List Char) (c : Char) :
    value base (digits ++ [c]) = base * value base digits + digitValue c := by
  simp only [value, List.foldl_append, List.foldl_cons, List.foldl_nil]

theorem value_toDigits (proper : 1 < base) (lettered : base ≤ 16) (n : Nat) :
    value base (Nat.toDigits base n) = n := by
  have digit (d : Nat) (bound : d < base) : digitValue (Nat.digitChar d) = d :=
    digitValue_written ⟨d, bound.trans_le lettered⟩
  induction n using Nat.strong_induction_on with
  | _ n ih =>
    rw [Nat.toDigits_eq_if proper]
    split
    · rename_i single
      simp only [value, List.foldl_cons, List.foldl_nil, Nat.mul_zero, Nat.zero_add,
        digit n single]
    · rename_i several
      have smaller : n / base < n := Nat.div_lt_self (by omega) proper
      rw [value_concat, ih _ smaller, digit _ (Nat.mod_lt n (by omega)), Nat.div_add_mod]

theorem value_zero_cons (digits : List Char) : value base ('0' :: digits) = value base digits := by
  have zero : digitValue '0' = 0 := rfl
  simp only [value, List.foldl_cons, zero, Nat.mul_zero, Nat.add_zero]

theorem value_leftpad (digits : List Char) :
    value base (digits.leftpad width '0') = value base digits := by
  rw [List.leftpad]
  induction width - digits.length with
  | zero => rfl
  | succ count ih => rwa [List.replicate_succ, List.cons_append, value_zero_cons]

theorem leftpad_toDigits_inj (proper : 1 < base) (lettered : base ≤ 16) {n m : Nat} :
    (Nat.toDigits base n).leftpad width '0' = (Nat.toDigits base m).leftpad width '0' ↔ n = m := by
  refine ⟨fun same => ?_, congrArg fun n => (Nat.toDigits base n).leftpad width '0'⟩
  have values := congrArg (value base) same
  rwa [value_leftpad, value_leftpad, value_toDigits proper lettered,
    value_toDigits proper lettered] at values

theorem toDigits_digits (proper : 1 < base) {n : Nat} :
    ∀ c ∈ Nat.toDigits base n, ∃ d < base, c = Nat.digitChar d := by
  induction n using Nat.strong_induction_on with
  | _ n ih =>
    intro c member
    rw [Nat.toDigits_eq_if proper] at member
    split at member
    · rename_i single
      exact ⟨n, single, List.mem_singleton.mp member⟩
    · rename_i several
      rcases List.mem_append.mp member with before | last
      · exact ih _ (Nat.div_lt_self (by omega) proper) c before
      · exact ⟨n % base, Nat.mod_lt n (by omega), List.mem_singleton.mp last⟩

private theorem digitChar_ne_newline : ∀ d : Fin 16, Nat.digitChar d ≠ '\n' := by decide

theorem newline_not_mem_leftpad (proper : 1 < base) (lettered : base ≤ 16) (n : Nat) :
    '\n' ∉ (Nat.toDigits base n).leftpad width '0' := by
  intro member
  rcases List.mem_append.mp member with padding | digit
  · exact absurd (List.eq_of_mem_replicate padding) (by decide)
  · obtain ⟨d, bound, newline⟩ := toDigits_digits proper _ digit
    exact digitChar_ne_newline ⟨d, bound.trans_le lettered⟩ newline.symm

/-! ## Lines -/

/-- A text of lines, a newline behind each. -/
def text (lines : List (List Char)) : List Char := lines.flatMap (· ++ ['\n'])

def linesOfText (text : List Char) : List (List Char) := (text.splitOn '\n').dropLast

theorem linesOfText_text {lines : List (List Char)} (unbroken : ∀ line ∈ lines, '\n' ∉ line) :
    linesOfText (text lines) = lines := by
  have split : (text lines).splitOn '\n' = lines ++ [[]] := by
    induction lines with
    | nil => rfl
    | cons line rest ih =>
      have later := ih fun other member => unbroken other (List.mem_cons_of_mem _ member)
      rw [text, List.flatMap_cons, List.append_assoc, List.singleton_append,
        List.splitOn_append_cons_self_of_not_mem (unbroken line List.mem_cons_self)]
      exact congrArg (line :: ·) later
  rw [linesOfText, split, List.dropLast_concat]

/-! ## Integers, and lists of them -/

def intValue : List Char → Int
  | '-' :: digits => -(value 10 digits : Int)
  | digits => value 10 digits

theorem intValue_of_digits {digits : List Char} (digital : ∀ c ∈ digits, c.isDigit = true) :
    intValue digits = value 10 digits := by
  unfold intValue
  split
  · rename_i rest
    have sign := digital '-' List.mem_cons_self
    contradiction
  · rfl

theorem intValue_toString (n : Int) : intValue (toString n).toList = n := by
  have digital (m : Nat) : ∀ c ∈ Nat.toDigits 10 m, c.isDigit = true :=
    fun c member => Nat.isDigit_of_mem_toDigits (by decide) (by decide) member
  rw [Int.toString_eq_repr, Int.repr_eq_if]
  split
  · rw [Nat.toList_repr, intValue_of_digits (digital _), value_toDigits (by decide) (by decide)]
    omega
  · have signed : ("-" ++ (-n).toNat.repr).toList = '-' :: Nat.toDigits 10 (-n).toNat := by
      rw [String.toList_append, Nat.toList_repr]
      rfl
    rw [signed, intValue, value_toDigits (by decide) (by decide)]
    omega

theorem comma_not_mem_toString (n : Int) : ',' ∉ (toString n).toList := by
  have digital (m : Nat) : ',' ∉ Nat.toDigits 10 m :=
    fun member => absurd (Nat.isDigit_of_mem_toDigits (by decide) (by decide) member) (by decide)
  rw [Int.toString_eq_repr, Int.repr_eq_if]
  split
  · rw [Nat.toList_repr]
    exact digital _
  · rw [String.toList_append, Nat.toList_repr]
    rintro member
    rcases List.mem_append.mp member with sign | digit
    · exact absurd sign (by decide)
    · exact digital _ digit

/-- Numbers separated by commas, read back. -/
def commaSeparated (text : List Char) : List Int := (text.splitOn ',').map intValue

theorem commaSeparated_intercalate {numbers : List Int} (some_ : numbers ≠ []) :
    commaSeparated ([','].intercalate (numbers.map fun n => (toString n).toList)) = numbers := by
  rw [commaSeparated, List.splitOn_intercalate]
  · rw [List.map_map]
    exact (List.map_congr_left fun n _ => intValue_toString n).trans (List.map_id _)
  · intro item member
    obtain ⟨n, -, rfl⟩ := List.mem_map.mp member
    exact comma_not_mem_toString n
  · simpa using some_

end JerryDriver.DigitText
