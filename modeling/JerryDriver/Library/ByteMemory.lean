import Mathlib.Data.List.Basic
import Mathlib.Data.Nat.Bitwise
import Mathlib.Tactic.Ring

/-! Byte-addressed memory as a little-endian host sees it. A memory is the bytes
from some base pointer on; loads are totals over all widths, so narrower loads of
the same address are remainders of wider ones. -/
namespace ByteMemory

abbrev Memory := Nat → UInt8

/-- The number stored little-endian in `width` bytes at `address`. -/
def load (memory : Memory) (address : Nat) : (width : Nat) → Nat
  | 0 => 0
  | width + 1 => (memory address).toNat + 256 * load memory (address + 1) width

def load16 (memory : Memory) (address : Nat) : UInt16 := UInt16.ofNat (load memory address 2)

def load32 (memory : Memory) (address : Nat) : UInt32 := UInt32.ofNat (load memory address 4)

def load64 (memory : Memory) (address : Nat) : UInt64 := UInt64.ofNat (load memory address 8)

/-- The memory that holds a byte string and zeros behind it. -/
def ofBytes (bytes : List UInt8) : Memory := fun address => bytes.getD address 0

/-- The `width` little-endian bytes of a number; higher bits are dropped. -/
def bytesOf : (width value : Nat) → List UInt8
  | 0, _ => []
  | width + 1, value => UInt8.ofNat value :: bytesOf width (value / 256)

variable {memory other : Memory} {address width value : Nat}

theorem load_lt : load memory address width < 256 ^ width := by
  induction width generalizing address with
  | zero => simp [load]
  | succ width ih =>
    have byte := (memory address).toNat_lt
    have rest : load memory (address + 1) width < 256 ^ width := ih
    rw [load, Nat.pow_succ]
    omega

theorem load_congr {place : Nat} (same : ∀ i < width, memory (address + i) = other (place + i)) :
    load memory address width = load other place width := by
  induction width generalizing address place with
  | zero => rfl
  | succ width ih =>
    have first := same 0 (by omega)
    have rest : load memory (address + 1) width = load other (place + 1) width := by
      apply ih
      intro i bound
      simpa only [Nat.add_assoc, Nat.add_comm 1 i] using same (i + 1) (by omega)
    simp only [Nat.add_zero] at first
    rw [load, load, first, rest]

theorem load_mod (narrow more : Nat) :
    load memory address (narrow + more) % 256 ^ narrow = load memory address narrow := by
  induction narrow generalizing address with
  | zero => simp [load, Nat.mod_one]
  | succ narrow ih =>
    have byte := (memory address).toNat_lt
    rw [Nat.add_right_comm, load, load, Nat.pow_succ', Nat.mod_mul,
      Nat.add_mul_mod_self_left, Nat.mod_eq_of_lt byte, Nat.add_mul_div_left _ _ (by decide),
      Nat.div_eq_of_lt byte, Nat.zero_add, ih]

/-- A wide load is made of the loads of its parts. -/
theorem load_add (low high : Nat) : load memory address (low + high) =
    load memory address low + 256 ^ low * load memory (address + low) high := by
  induction low generalizing address with
  | zero => simp [load]
  | succ low ih =>
    rw [Nat.add_right_comm, load, ih, load, Nat.pow_succ', Nat.mul_add, Nat.add_right_comm address,
      Nat.add_assoc address, Nat.mul_assoc, Nat.add_assoc]

theorem load32_toNat : (load32 memory address).toNat = load memory address 4 := by
  have bound : load memory address 4 < 2 ^ 32 := load_lt
  rw [load32, UInt32.toNat_ofNat', Nat.mod_eq_of_lt bound]

theorem load16_toNat : (load16 memory address).toNat =
    (memory address).toNat + 256 * (memory (address + 1)).toNat := by
  have bound : load memory address 2 < 65536 := load_lt
  rw [load16, UInt16.toNat_ofNat', Nat.mod_eq_of_lt bound]
  simp [load]

theorem load64_toNat : (load64 memory address).toNat = load memory address 8 := by
  have bound : load memory address 8 < 2 ^ 64 := load_lt
  rw [load64, UInt64.toNat_ofNat', Nat.mod_eq_of_lt bound]

theorem load64_low : (load64 memory address).toNat % 65536 =
    (memory address).toNat + 256 * (memory (address + 1)).toNat := by
  rw [load64_toNat, show (65536 : Nat) = 256 ^ 2 by decide, load_mod 2 6]
  simp [load]

/-- The value of two bytes as a signed 16-bit word in two's complement. -/
def signed16 (low high : UInt8) : Int :=
  if high.toNat < 128 then low.toNat + 256 * high.toNat
  else low.toNat + 256 * high.toNat - 65536

theorem load16_signed : (load16 memory address).toInt16.toInt =
    signed16 (memory address) (memory (address + 1)) := by
  have value := @load16_toNat memory address
  have low := (memory address).toNat_lt
  have high := (memory (address + 1)).toNat_lt
  have signed : (load16 memory address).toInt16.toInt =
      (load16 memory address).toBitVec.toInt := rfl
  rw [signed, BitVec.toInt_eq_toNat_cond, UInt16.toNat_toBitVec, value, signed16]
  split <;> split <;> omega

theorem load16_inj {place : Nat} : load16 memory address = load16 other place ↔
    memory address = other place ∧ memory (address + 1) = other (place + 1) := by
  constructor
  · intro same
    have value := congrArg UInt16.toNat same
    have first := (memory address).toNat_lt
    have second := (other place).toNat_lt
    rw [load16_toNat, load16_toNat] at value
    exact ⟨UInt8.toNat_inj.mp (by omega), UInt8.toNat_inj.mp (by omega)⟩
  · rintro ⟨first, second⟩
    apply UInt16.toNat_inj.mp
    rw [load16_toNat, load16_toNat, first, second]

theorem load64_congr {place : Nat} (same : ∀ i < 8, memory (address + i) = other (place + i)) :
    load64 memory address = load64 other place :=
  congrArg UInt64.ofNat (load_congr same)

@[simp] theorem length_bytesOf : (bytesOf width value).length = width := by
  induction width generalizing value with
  | zero => rfl
  | succ width ih => simp [bytesOf, ih]

/-! ## Words as pairs of bytes -/

/-- Exchange the two bytes of a word: `ntohs` and `htons` of a little-endian host. -/
def swap16 (word : UInt16) : UInt16 :=
  UInt16.ofNat (word.toNat % 256 * 256 + word.toNat / 256)

theorem swap16_toNat (word : UInt16) :
    (swap16 word).toNat = word.toNat % 256 * 256 + word.toNat / 256 := by
  have bound := word.toNat_lt
  rw [swap16, UInt16.toNat_ofNat', Nat.mod_eq_of_lt (by omega)]

/-- Masks apply to the high and to the low part of a number separately. -/
theorem land_parts (bits high highMask : Nat) {low mask : Nat} (lowBound : low < 2 ^ bits)
    (maskBound : mask < 2 ^ bits) :
    (2 ^ bits * high + low) &&& (2 ^ bits * highMask + mask) =
      2 ^ bits * (high &&& highMask) + (low &&& mask) := by
  have bound : low &&& mask < 2 ^ bits := Nat.and_lt_two_pow _ maskBound
  apply Nat.eq_of_testBit_eq
  intro i
  rw [Nat.testBit_and, Nat.testBit_two_pow_mul_add _ lowBound,
    Nat.testBit_two_pow_mul_add _ maskBound, Nat.testBit_two_pow_mul_add _ bound]
  split <;> rw [Nat.testBit_and]

/-! ## Words laid out one after the other -/

theorem ofBytes_append (front rest : List UInt8) (i : Nat) :
    ofBytes (front ++ rest) (front.length + i) = ofBytes rest i := by
  rw [ofBytes, List.getD_append_right _ _ _ _ (Nat.le_add_right _ _), Nat.add_sub_cancel_left]
  rfl

/-- A prefix of the bytes is read as they are. -/
theorem load16_take {bytes : List UInt8} {count : Nat} (inside : address + 1 < count) :
    load16 (ofBytes (bytes.take count)) address = load16 (ofBytes bytes) address := by
  have byte {i : Nat} (bound : i < count) : ofBytes (bytes.take count) i = ofBytes bytes i := by
    simp only [ofBytes, List.getD_eq_getElem?_getD, List.getElem?_take_of_lt bound]
  exact load16_inj.mpr ⟨byte (by omega), byte inside⟩

/-- Bytes in front of an encoding only shift the addresses. -/
theorem load16_append (front rest : List UInt8) (address : Nat) :
    load16 (ofBytes (front ++ rest)) (front.length + address) = load16 (ofBytes rest) address :=
  load16_inj.mpr ⟨ofBytes_append front rest address,
    by rw [Nat.add_assoc, ofBytes_append]⟩

theorem load16_word (word : UInt16) (rest : List UInt8) :
    load16 (ofBytes (bytesOf 2 word.toNat ++ rest)) 0 = word := by
  have bound := word.toNat_lt
  apply UInt16.toNat_inj.mp
  rw [load16_toNat]
  simp only [ofBytes, bytesOf, List.cons_append, List.getD_cons_zero, List.getD_cons_succ,
    UInt8.toNat_ofNat']
  omega

theorem load16_words (words : List UInt16) {i : Nat} (bound : i < words.length) :
    load16 (ofBytes (words.flatMap fun word => bytesOf 2 word.toNat)) (2 * i) = words[i] := by
  induction words generalizing i with
  | nil => contradiction
  | cons word rest ih =>
    rw [List.flatMap_cons]
    cases i with
    | zero => exact load16_word word _
    | succ i =>
      have offset : 2 * (i + 1) = (bytesOf 2 word.toNat).length + 2 * i := by
        rw [length_bytesOf]
        omega
      rw [offset, load16_append, ih (Nat.lt_of_succ_lt_succ bound), List.getElem_cons_succ]

end ByteMemory
