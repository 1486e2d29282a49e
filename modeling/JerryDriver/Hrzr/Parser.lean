import JerryDriver.Common
import JerryDriver.Library.ByteMemory
import Mathlib.Data.Rat.Lemmas
import Mathlib.Logic.Function.Basic

/-! Decoding of a packet's payload into the caller's sample buffer. Division by the
norm is exact rational arithmetic. A buffer records the indices that were assigned,
in order, because the caller's allocation is known to the caller only. -/
namespace JerryDriver
open ByteMemory Definitions

structure Sample where
  re : ℚ
  im : ℚ
  deriving DecidableEq

/-- The memory behind the caller's `samples` pointer and the indices assigned in it. -/
structure SampleBuffer where
  cells : Nat → Sample
  written : List Nat

namespace SampleBuffer

def setReal (samples : SampleBuffer) (index : Nat) (value : ℚ) : SampleBuffer where
  cells := Function.update samples.cells index { samples.cells index with re := value }
  written := samples.written ++ [index]

def setImag (samples : SampleBuffer) (index : Nat) (value : ℚ) : SampleBuffer where
  cells := Function.update samples.cells index { samples.cells index with im := value }
  written := samples.written ++ [index]

def block (samples : SampleBuffer) (packetIdx : Nat) : List Sample :=
  (List.range samplesPerPacket).map fun i => samples.cells (packetIdx * samplesPerPacket + i)

end SampleBuffer

structure HrzrParser where
  norm : ℚ
  norm_ne_zero : norm ≠ 0

namespace HrzrParser

def create (norm : ℚ) : Except Thrown HrzrParser :=
  if zero : norm = 0 then .error (.invalidValueError "Norm cannot be 0.") else .ok ⟨norm, zero⟩

def unit : HrzrParser := ⟨1, by decide⟩

theorem create_error_iff (norm : ℚ) :
    create norm = .error (.invalidValueError "Norm cannot be 0.") ↔ norm = 0 := by
  unfold create
  split <;> simp_all

/-- `payload` as the code casts it: little-endian 16-bit words at a byte address. -/
def payloadAt (memory : Memory) (address index : Nat) : Int16 :=
  (load16 memory (address + 2 * index)).toInt16

/-- The first `count` iterations of the decoding loop, with the running total. -/
def parsePrefix (parser : HrzrParser) (packetIdx : Nat) (payload : Nat → Int16)
    (samples : SampleBuffer) : (count : Nat) → Nat × SampleBuffer
  | 0 => (0, samples)
  | sampleIdxPacket + 1 =>
    let (totalSamplesReceived, samples) :=
      parsePrefix parser packetIdx payload samples sampleIdxPacket
    let index := packetIdx * samplesPerPacket + sampleIdxPacket
    let samples := samples.setReal index ((payload (sampleIdxPacket * 2)).toInt / parser.norm)
    let samples := samples.setImag index ((payload (sampleIdxPacket * 2 + 1)).toInt / parser.norm)
    (totalSamplesReceived + 1, samples)

def parsePayloadSamples (parser : HrzrParser) (packetIdx : Nat) (payload : Nat → Int16)
    (samples : SampleBuffer) : Nat × SampleBuffer :=
  parsePrefix parser packetIdx payload samples samplesPerPacket

def decoded (parser : HrzrParser) (payload : Nat → Int16) (position : Nat) : Sample where
  re := (payload (position * 2)).toInt / parser.norm
  im := (payload (position * 2 + 1)).toInt / parser.norm

variable {parser : HrzrParser} {packetIdx : Nat} {payload : Nat → Int16} {samples : SampleBuffer}

theorem parsePrefix_total (count : Nat) :
    (parsePrefix parser packetIdx payload samples count).1 = count := by
  induction count with
  | zero => rfl
  | succ count ih => simp only [parsePrefix, ih]

/-- After `count` iterations the first `count` cells of the packet's block hold
the decoded samples and every other cell is as before. -/
theorem parsePrefix_cells (count index : Nat) :
    (parsePrefix parser packetIdx payload samples count).2.cells index =
      if packetIdx * samplesPerPacket ≤ index ∧ index < packetIdx * samplesPerPacket + count then
        decoded parser payload (index - packetIdx * samplesPerPacket)
      else samples.cells index := by
  induction count with
  | zero => simp [parsePrefix]
  | succ count ih =>
    simp only [parsePrefix, SampleBuffer.setReal, SampleBuffer.setImag]
    by_cases here : index = packetIdx * samplesPerPacket + count
    · subst here
      simp [decoded]
    · rw [Function.update_of_ne here, Function.update_of_ne here, ih]
      have bounds : (packetIdx * samplesPerPacket ≤ index ∧
          index < packetIdx * samplesPerPacket + count) ↔
          (packetIdx * samplesPerPacket ≤ index ∧
            index < packetIdx * samplesPerPacket + (count + 1)) := by omega
      simp only [bounds]

theorem parsePrefix_written (count index : Nat) :
    index ∈ (parsePrefix parser packetIdx payload samples count).2.written ↔
      index ∈ samples.written ∨
        (packetIdx * samplesPerPacket ≤ index ∧ index < packetIdx * samplesPerPacket + count) := by
  induction count with
  | zero => simp [parsePrefix]
  | succ count ih =>
    have block : (packetIdx * samplesPerPacket ≤ index ∧
        index < packetIdx * samplesPerPacket + (count + 1)) ↔
        (packetIdx * samplesPerPacket ≤ index ∧ index < packetIdx * samplesPerPacket + count) ∨
          index = packetIdx * samplesPerPacket + count := by omega
    simp only [parsePrefix, SampleBuffer.setReal, SampleBuffer.setImag, List.mem_append, ih,
      List.mem_singleton, block, or_assoc, or_self]

@[simp] theorem parsePayloadSamples_total :
    (parsePayloadSamples parser packetIdx payload samples).1 = samplesPerPacket := by
  rw [parsePayloadSamples, parsePrefix_total]

theorem block_iff (packetIdx index : Nat) : (packetIdx * samplesPerPacket ≤ index ∧
    index < packetIdx * samplesPerPacket + samplesPerPacket) ↔
      index / samplesPerPacket = packetIdx := by
  have positive := samplesPerPacket_pos
  rw [Nat.div_eq_iff positive]
  omega

/-- A packet's block receives the packet's samples; all other cells keep theirs. -/
theorem parsePayloadSamples_cells (index : Nat) :
    (parsePayloadSamples parser packetIdx payload samples).2.cells index =
      if index / samplesPerPacket = packetIdx then
        decoded parser payload (index % samplesPerPacket)
      else samples.cells index := by
  rw [parsePayloadSamples, parsePrefix_cells]
  simp only [block_iff]
  split
  · rename_i here
    rw [← here, Nat.mod_eq_sub_div_mul]
  · rfl

theorem parsePayloadSamples_written (index : Nat) :
    index ∈ (parsePayloadSamples parser packetIdx payload samples).2.written ↔
      index ∈ samples.written ∨ index / samplesPerPacket = packetIdx := by
  rw [parsePayloadSamples, parsePrefix_written, block_iff]

theorem parsePrefix_congr {other : Nat → Int16} {count : Nat}
    (same : ∀ index < count * 2, payload index = other index) :
    parsePrefix parser packetIdx payload samples count =
      parsePrefix parser packetIdx other samples count := by
  induction count with
  | zero => rfl
  | succ count ih =>
    have earlier := ih fun index bound => same index (by omega)
    simp only [parsePrefix, earlier, same (count * 2) (by omega),
      same (count * 2 + 1) (by omega)]

/-- Only the words of one packet are read. -/
theorem parsePayloadSamples_congr {other : Nat → Int16}
    (same : ∀ index < samplesPerPacket * 2, payload index = other index) :
    parsePayloadSamples parser packetIdx payload samples =
      parsePayloadSamples parser packetIdx other samples :=
  parsePrefix_congr same

-- Sealed from here on: projections of its result would unfold all 366 iterations.
attribute [irreducible] parsePayloadSamples

/-- Division by the norm loses nothing: equal samples come from equal words. -/
theorem decoded_inj {other : Nat → Int16} {position place : Nat} :
    decoded parser payload position = decoded parser other place ↔
      payload (position * 2) = other (place * 2) ∧
        payload (position * 2 + 1) = other (place * 2 + 1) := by
  simp only [decoded, Sample.mk.injEq, div_left_inj' parser.norm_ne_zero, Rat.intCast_inj,
    Int16.toInt_inj]

theorem cell_index (packetIdx : Nat) {i : Nat} (within : i < samplesPerPacket) :
    (packetIdx * samplesPerPacket + i) / samplesPerPacket = packetIdx ∧
      (packetIdx * samplesPerPacket + i) % samplesPerPacket = i := by
  constructor
  · rw [Nat.mul_comm, Nat.mul_add_div samplesPerPacket_pos, Nat.div_eq_of_lt within, Nat.add_zero]
  · rw [Nat.mul_comm, Nat.mul_add_mod, Nat.mod_eq_of_lt within]

theorem parsePayloadSamples_block :
    (parsePayloadSamples parser packetIdx payload samples).2.block packetIdx =
      (List.range samplesPerPacket).map (decoded parser payload) := by
  apply List.map_congr_left
  intro i within
  obtain ⟨here, position⟩ := cell_index packetIdx (List.mem_range.mp within)
  rw [parsePayloadSamples_cells, here, if_pos rfl, position]

private theorem toInt16_inj {a b : UInt16} : a.toInt16 = b.toInt16 ↔ a = b := by
  constructor
  · intro same
    simpa using congrArg Int16.toUInt16 same
  · exact congrArg UInt16.toInt16

/-- Two payloads decode to the same block exactly when all their bytes agree. -/
theorem decoded_block_inj {memory other : Memory} {address place : Nat} :
    (List.range samplesPerPacket).map (decoded parser (payloadAt memory address)) =
      (List.range samplesPerPacket).map (decoded parser (payloadAt other place)) ↔
    ∀ k < payloadSize, memory (address + k) = other (place + k) := by
  rw [List.map_inj_left]
  simp only [List.mem_range, decoded_inj, payloadAt, toInt16_inj, load16_inj]
  rw [samplesPerPacket_eq, payloadSize]
  constructor
  · intro same k bound
    obtain ⟨⟨first, second⟩, third, fourth⟩ := same (k / 4) (by omega)
    have offset : k % 4 = 0 ∨ k % 4 = 1 ∨ k % 4 = 2 ∨ k % 4 = 3 := by omega
    rcases offset with offset | offset | offset | offset
    · rwa [show 2 * (k / 4 * 2) = k by omega] at first
    · rwa [Nat.add_assoc, Nat.add_assoc, show 2 * (k / 4 * 2) + 1 = k by omega] at second
    · rwa [show 2 * (k / 4 * 2 + 1) = k by omega] at third
    · rwa [Nat.add_assoc, Nat.add_assoc, show 2 * (k / 4 * 2 + 1) + 1 = k by omega] at fourth
  · intro same i bound
    simp only [Nat.add_assoc]
    exact ⟨⟨same _ (by omega), same _ (by omega)⟩, same _ (by omega), same _ (by omega)⟩

/-! ## Packets decoded to consecutive blocks -/

/-- Payloads decoded one after the other, each to the block behind the one before. -/
def parseBlocks (parser : HrzrParser) :
    List (Nat → Int16) → (packetIdx : Nat) → SampleBuffer → SampleBuffer
  | [], _, samples => samples
  | payload :: rest, packetIdx, samples =>
    parseBlocks parser rest (packetIdx + 1) (parsePayloadSamples parser packetIdx payload samples).2

/-- Each payload's block receives its samples; cells outside the blocks keep theirs. -/
theorem parseBlocks_cells (payloads : List (Nat → Int16)) (packetIdx : Nat)
    (samples : SampleBuffer) (index : Nat) :
    (parseBlocks parser payloads packetIdx samples).cells index =
      if packetIdx ≤ index / samplesPerPacket then
        (payloads[index / samplesPerPacket - packetIdx]?).elim (samples.cells index)
          fun payload => decoded parser payload (index % samplesPerPacket)
      else samples.cells index := by
  induction payloads generalizing packetIdx samples with
  | nil => simp [parseBlocks]
  | cons payload rest ih =>
    rw [parseBlocks, ih, parsePayloadSamples_cells]
    generalize index / samplesPerPacket = block
    rcases Nat.lt_trichotomy block packetIdx with before | here | after
    · rw [if_neg (by omega), if_neg (by omega), if_neg (by omega)]
    · subst here
      rw [if_neg (by omega), if_pos rfl, if_pos (Nat.le_refl _), Nat.sub_self,
        List.getElem?_cons_zero, Option.elim_some]
    · obtain ⟨offset, rfl⟩ := Nat.exists_eq_add_of_lt after
      rw [if_pos (by omega), if_neg (by omega), if_pos (by omega),
        show packetIdx + offset + 1 - (packetIdx + 1) = offset by omega,
        show packetIdx + offset + 1 - packetIdx = offset + 1 by omega,
        List.getElem?_cons_succ]

theorem parseBlocks_written (payloads : List (Nat → Int16)) (packetIdx : Nat)
    (samples : SampleBuffer) (index : Nat) :
    index ∈ (parseBlocks parser payloads packetIdx samples).written ↔
      index ∈ samples.written ∨ (packetIdx ≤ index / samplesPerPacket ∧
        index / samplesPerPacket < packetIdx + payloads.length) := by
  induction payloads generalizing packetIdx samples with
  | nil => rw [parseBlocks, List.length_nil, or_iff_left (by omega)]
  | cons payload rest ih =>
    have blocks (block : Nat) : (block = packetIdx ∨
        packetIdx + 1 ≤ block ∧ block < packetIdx + 1 + rest.length) ↔
          packetIdx ≤ block ∧ block < packetIdx + (rest.length + 1) := by omega
    rw [parseBlocks, ih, parsePayloadSamples_written, List.length_cons, or_assoc, blocks]

/-- The blocks lie end to end. -/
theorem parseBlocks_samples (payloads : List (Nat → Int16)) (packetIdx : Nat)
    (samples : SampleBuffer) :
    (List.range (payloads.length * samplesPerPacket)).map
        (fun i => (parseBlocks parser payloads packetIdx samples).cells
          (packetIdx * samplesPerPacket + i)) =
      payloads.flatMap fun payload =>
        (List.range samplesPerPacket).map (decoded parser payload) := by
  induction payloads generalizing packetIdx samples with
  | nil => simp
  | cons payload rest ih =>
    have first : (List.range samplesPerPacket).map
        (fun i => (parseBlocks parser (payload :: rest) packetIdx samples).cells
          (packetIdx * samplesPerPacket + i)) =
        (List.range samplesPerPacket).map (decoded parser payload) := by
      apply List.map_congr_left
      intro i within
      obtain ⟨here, position⟩ := cell_index packetIdx (List.mem_range.mp within)
      rw [parseBlocks_cells, here, position, if_pos (Nat.le_refl _), Nat.sub_self,
        List.getElem?_cons_zero, Option.elim_some]
    have later := ih (packetIdx + 1) (parsePayloadSamples parser packetIdx payload samples).2
    have shifted : (fun i => (parseBlocks parser (payload :: rest) packetIdx samples).cells
          (packetIdx * samplesPerPacket + i)) ∘ (samplesPerPacket + ·) =
        fun i => (parseBlocks parser rest (packetIdx + 1)
          (parsePayloadSamples parser packetIdx payload samples).2).cells
          ((packetIdx + 1) * samplesPerPacket + i) := by
      funext i
      simp only [Function.comp_apply, parseBlocks, Nat.succ_mul, Nat.add_assoc]
    rw [List.length_cons, Nat.succ_mul, Nat.add_comm, List.range_add, List.map_append, first,
      List.map_map, shifted, later, List.flatMap_cons]

end HrzrParser
end JerryDriver
