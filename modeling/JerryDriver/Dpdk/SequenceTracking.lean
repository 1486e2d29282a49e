import JerryDriver.Dpdk.Packet
import Mathlib.Data.List.Induction

/-! The loss statistics that both receive threads keep. The two loops contain the
same statements and differ in the text they print; the numbers printed are part of
the report. The counters are 64-bit and shared by all streams. -/
namespace JerryDriver
open HrzrHeaderParser

structure Totals where
  totalPackets : UInt64
  totalPacketsLost : UInt64

/-- One entry into the "skipping" branch: the amounts added to the counters, the
printed number of packets, and the printed rate as the two counters it divides. -/
structure Skip where
  lost : Nat
  extra : Nat
  diff : Int
  rate : UInt64 × UInt64

/-- Counting one packet: the previous sequence number is the thread's only memory. -/
def trackSequence (seq : Int) (totals : Totals) (hrzr : UInt64) : Int × Totals × Option Skip :=
  let prevSeq := seq
  let seq : Int := (getSequenceNumberFromHeader hrzr).toNat
  let totals := { totals with totalPackets := totals.totalPackets + 1 }
  -- Whatever follows 4095 and whatever carries 0 is exempt, also across a gap.
  if seq ≠ prevSeq + 1 ∧ prevSeq ≠ 4095 ∧ seq ≠ 0 then
    let distance := (seq - prevSeq).natAbs
    let totals : Totals :=
      { totalPackets := totals.totalPackets + UInt64.ofNat distance
        totalPacketsLost := totals.totalPacketsLost + UInt64.ofNat distance }
    let diff : Int := if seq < prevSeq then seq + (4095 - prevSeq) else distance
    (seq, totals, some ⟨distance, distance, diff, totals.totalPacketsLost, totals.totalPackets⟩)
  else (seq, totals, none)

theorem trackSequence_seq (seq : Int) (totals : Totals) (hrzr : UInt64) :
    (trackSequence seq totals hrzr).1 = (getSequenceNumberFromHeader hrzr).toNat := by
  simp only [trackSequence]
  split <;> rfl

theorem trackSequence_skip_isSome (seq : Int) (totals : Totals) (hrzr : UInt64) :
    (trackSequence seq totals hrzr).2.2.isSome = true ↔
      ((getSequenceNumberFromHeader hrzr).toNat : Int) ≠ seq + 1 ∧ seq ≠ 4095 ∧
        ((getSequenceNumberFromHeader hrzr).toNat : Int) ≠ 0 := by
  simp only [trackSequence]
  split
  · rename_i entered
    exact ⟨fun _ => entered, fun _ => rfl⟩
  · rename_i passed
    simp only [Option.isSome_none, Bool.false_eq_true, false_iff]
    exact passed

theorem trackSequence_report {seq : Int} {totals : Totals} {hrzr : UInt64} {skip : Skip}
    (entered : (trackSequence seq totals hrzr).2.2 = some skip) :
    skip.lost = ((getSequenceNumberFromHeader hrzr).toNat - seq).natAbs ∧
      skip.extra = skip.lost ∧
      skip.diff = if ((getSequenceNumberFromHeader hrzr).toNat : Int) < seq then
        (getSequenceNumberFromHeader hrzr).toNat + (4095 - seq) else skip.lost := by
  simp only [trackSequence] at entered
  split at entered
  · cases Option.some.inj entered
    exact ⟨rfl, rfl, rfl⟩
  · contradiction

theorem trackSequence_lost (seq : Int) (totals : Totals) (hrzr : UInt64) :
    (trackSequence seq totals hrzr).2.1.totalPacketsLost = totals.totalPacketsLost +
      UInt64.ofNat ((trackSequence seq totals hrzr).2.2.elim 0 Skip.lost) := by
  simp only [trackSequence]
  split <;> simp

/-- The step from one number to the next enters the "skipping" branch. -/
def Jumps (seq number : Int) : Prop := number ≠ seq + 1 ∧ seq ≠ 4095 ∧ number ≠ 0

instance (seq number : Int) : Decidable (Jumps seq number) :=
  inferInstanceAs (Decidable (_ ∧ _))

/-- The amount that a packet adds to the packets lost. -/
def lostBetween (seq number : Int) : Nat :=
  if Jumps seq number then (number - seq).natAbs else 0

/-- The amounts of an entry into the branch; the rate is left out. -/
def Skip.amounts (skip : Skip) : Nat × Nat × Int := (skip.lost, skip.extra, skip.diff)

def amountsBetween (seq number : Int) : Option (Nat × Nat × Int) :=
  if Jumps seq number then
    some ((number - seq).natAbs, (number - seq).natAbs,
      if number < seq then number + (4095 - seq) else (number - seq).natAbs)
  else none

theorem trackSequence_of_jumps {seq : Int} {hrzr : UInt64} (totals : Totals)
    (jumps : Jumps seq (getSequenceNumberFromHeader hrzr).toNat) :
    let number : Int := (getSequenceNumberFromHeader hrzr).toNat
    let distance := (number - seq).natAbs
    let counted : Totals := ⟨totals.totalPackets + 1 + UInt64.ofNat distance,
      totals.totalPacketsLost + UInt64.ofNat distance⟩
    trackSequence seq totals hrzr = (number, counted, some ⟨distance, distance,
      if number < seq then number + (4095 - seq) else distance,
      counted.totalPacketsLost, counted.totalPackets⟩) := if_pos jumps

theorem trackSequence_of_not_jumps {seq : Int} {hrzr : UInt64} (totals : Totals)
    (passes : ¬ Jumps seq (getSequenceNumberFromHeader hrzr).toNat) :
    let number : Int := (getSequenceNumberFromHeader hrzr).toNat
    trackSequence seq totals hrzr =
      (number, { totals with totalPackets := totals.totalPackets + 1 }, none) := if_neg passes

theorem trackSequence_amounts (seq : Int) (totals : Totals) (hrzr : UInt64) :
    (trackSequence seq totals hrzr).2.2.map Skip.amounts =
      amountsBetween seq (getSequenceNumberFromHeader hrzr).toNat := by
  by_cases jumps : Jumps seq (getSequenceNumberFromHeader hrzr).toNat
  · rw [trackSequence_of_jumps totals jumps, amountsBetween, if_pos jumps]
    rfl
  · rw [trackSequence_of_not_jumps totals jumps, amountsBetween, if_neg jumps]
    rfl

theorem amountsBetween_upwards {p s : Nat} (later : p + 1 < s) (notLast : p ≠ 4095) :
    amountsBetween p s = some (s - p, s - p, ((s - p : Nat) : Int)) := by
  have jumps : Jumps p s := ⟨by omega, by omega, by omega⟩
  have distance : ((s : Int) - p).natAbs = s - p := by omega
  rw [amountsBetween, if_pos jumps, if_neg (by omega), distance]

theorem amountsBetween_downwards {p s : Nat} (earlier : s < p) (notLast : p ≠ 4095)
    (notFirst : s ≠ 0) : amountsBetween p s = some (p - s, p - s, (s : Int) + (4095 - p)) := by
  have jumps : Jumps p s := ⟨by omega, by omega, by omega⟩
  have distance : ((s : Int) - p).natAbs = p - s := by omega
  rw [amountsBetween, if_pos jumps, if_pos (by omega), distance]

/-- Jumps to one number from different ones show in the amounts. -/
theorem amountsBetween_eq_iff (p q number : Int) :
    amountsBetween p number = amountsBetween q number ↔
      p = q ∨ ¬ Jumps p number ∧ ¬ Jumps q number := by
  unfold amountsBetween
  by_cases first : Jumps p number
  · by_cases second : Jumps q number
    · simp only [first, second, if_true, Option.some.injEq, Prod.mk.injEq, not_true_eq_false,
        and_self, or_false]
      constructor
      · rintro ⟨distance, -, diff⟩
        split at diff <;> split at diff <;> omega
      · rintro rfl
        exact ⟨rfl, rfl, rfl⟩
    · simp only [first, second, if_true, if_false, reduceCtorEq, not_true_eq_false, false_and,
        or_false, false_iff]
      rintro rfl
      exact second first
  · by_cases second : Jumps q number
    · simp only [first, second, if_true, if_false, reduceCtorEq, not_true_eq_false, and_false,
        or_false, false_iff]
      rintro rfl
      exact first second
    · simp only [first, second, if_false, not_false_eq_true, and_self, or_true]

theorem trackSequence_amount (seq : Int) (totals : Totals) (hrzr : UInt64) :
    (trackSequence seq totals hrzr).2.2.elim 0 Skip.lost =
      lostBetween seq (getSequenceNumberFromHeader hrzr).toNat := by
  by_cases jumps : Jumps seq (getSequenceNumberFromHeader hrzr).toNat
  · rw [trackSequence_of_jumps totals jumps, lostBetween, if_pos jumps]
    rfl
  · rw [trackSequence_of_not_jumps totals jumps, lostBetween, if_neg jumps]
    rfl

theorem trackSequence_totals (seq : Int) (totals : Totals) (hrzr : UInt64) :
    (trackSequence seq totals hrzr).2.1 =
      { totalPackets := totals.totalPackets + 1 +
          UInt64.ofNat (lostBetween seq (getSequenceNumberFromHeader hrzr).toNat)
        totalPacketsLost := totals.totalPacketsLost +
          UInt64.ofNat (lostBetween seq (getSequenceNumberFromHeader hrzr).toNat) } := by
  by_cases jumps : Jumps seq (getSequenceNumberFromHeader hrzr).toNat
  · rw [trackSequence_of_jumps totals jumps, lostBetween, if_pos jumps]
  · rw [trackSequence_of_not_jumps totals jumps, lostBetween, if_neg jumps]
    simp

/-- The counters after further packets, some of them counted as losses. -/
def Totals.plus (totals : Totals) (lost packets : Nat) : Totals :=
  ⟨totals.totalPackets + UInt64.ofNat (lost + packets),
    totals.totalPacketsLost + UInt64.ofNat lost⟩

theorem Totals.plus_plus (totals : Totals) (lost packets more further : Nat) :
    (totals.plus lost packets).plus more further =
      totals.plus (lost + more) (packets + further) := by
  simp only [plus, UInt64.ofNat_add, Totals.mk.injEq]
  constructor <;> ac_rfl

theorem Totals.plus_zero (totals : Totals) : totals.plus 0 0 = totals := by
  simp [plus]

/-- The rate printed divides the counters as they are after the packet. -/
theorem trackSequence_rate {seq : Int} {totals : Totals} {hrzr : UInt64} {skip : Skip}
    (entered : (trackSequence seq totals hrzr).2.2 = some skip) :
    skip.rate = ((trackSequence seq totals hrzr).2.1.totalPacketsLost,
      (trackSequence seq totals hrzr).2.1.totalPackets) := by
  simp only [trackSequence] at entered ⊢
  split at entered
  · rename_i distant
    rw [if_pos distant]
    cases Option.some.inj entered
    rfl
  · contradiction

structure Tracking where
  seq : Int
  totals : Totals
  skips : List (Option Skip)

namespace Tracking

def start (totals : Totals) : Tracking := ⟨0, totals, []⟩

def track (tracking : Tracking) (m : Mbuf) : Tracking :=
  let (seq, totals, skip) := trackSequence tracking.seq tracking.totals m.headers.hrzr
  ⟨seq, totals, tracking.skips ++ [skip]⟩

def trackAll (tracking : Tracking) (frames : List Mbuf) : Tracking := frames.foldl track tracking

def sequenceNumber (m : Mbuf) : Nat := (getSequenceNumberFromHeader m.headers.hrzr).toNat

theorem track_totals (tracking : Tracking) (m : Mbuf) : (tracking.track m).totals =
    tracking.totals.plus (lostBetween tracking.seq (sequenceNumber m)) 1 := by
  simp only [track, trackSequence_totals, Totals.plus, UInt64.ofNat_add, Totals.mk.injEq]
  exact ⟨(UInt64.add_assoc ..).trans (congrArg _ (UInt64.add_comm ..)), rfl⟩

/-- The number tracking compares with at a position: the made-up 0 at the first. -/
def predecessor (frames : List Mbuf) : Nat → Nat
  | 0 => 0
  | i + 1 => (frames[i]?.map sequenceNumber).getD 0

theorem trackAll_concat (tracking : Tracking) (frames : List Mbuf) (m : Mbuf) :
    tracking.trackAll (frames ++ [m]) = (tracking.trackAll frames).track m := by
  rw [trackAll, List.foldl_concat]
  rfl

theorem trackAll_length (totals : Totals) (frames : List Mbuf) :
    ((start totals).trackAll frames).skips.length = frames.length := by
  induction frames using List.reverseRecOn with
  | nil => rfl
  | append_singleton frames m ih =>
    rw [trackAll_concat, List.length_append, ← ih, track, List.length_append]
    rfl

theorem predecessor_last (frames : List Mbuf) (m : Mbuf) :
    predecessor (frames ++ [m]) (frames ++ [m]).length = sequenceNumber m := by
  simp only [List.length_append, List.length_singleton, predecessor,
    List.getElem?_concat_length, Option.map_some, Option.getD_some]

theorem trackAll_seq (totals : Totals) (frames : List Mbuf) :
    ((start totals).trackAll frames).seq = predecessor frames frames.length := by
  cases frames using List.reverseRecOn with
  | nil => rfl
  | append_singleton frames m =>
    rw [trackAll_concat, track, predecessor_last]
    exact trackSequence_seq ..

theorem predecessor_concat {frames : List Mbuf} {i : Nat} (within : i ≤ frames.length) (m : Mbuf) :
    predecessor (frames ++ [m]) i = predecessor frames i := by
  cases i with
  | zero => rfl
  | succ i => rw [predecessor, predecessor, List.getElem?_append_left within]

/-- The entry for a packet compares its number with its predecessor's. -/
theorem trackAll_entry (totals : Totals) {frames : List Mbuf} {i : Nat} {entry : Option Skip}
    (found : ((start totals).trackAll frames).skips[i]? = some entry) :
    ∃ m before, frames[i]? = some m ∧
      entry = (trackSequence (predecessor frames i) before m.headers.hrzr).2.2 := by
  induction frames using List.reverseRecOn with
  | nil => contradiction
  | append_singleton frames m ih =>
    have length := trackAll_length totals frames
    rw [trackAll_concat, track] at found
    rcases Nat.lt_trichotomy i frames.length with inside | last | beyond
    · rw [List.getElem?_append_left (by rwa [length])] at found
      obtain ⟨other, before, present, compared⟩ := ih found
      refine ⟨other, before, ?_, ?_⟩
      · rw [List.getElem?_append_left inside, present]
      · rw [predecessor_concat (Nat.le_of_lt inside), compared]
    · subst last
      rw [← length, List.getElem?_concat_length, Option.some.injEq] at found
      refine ⟨m, ((start totals).trackAll frames).totals, List.getElem?_concat_length, ?_⟩
      rw [predecessor_concat (Nat.le_refl _), ← trackAll_seq totals, found]
    · rw [List.getElem?_eq_none (by rw [List.length_append, length]; exact beyond)] at found
      contradiction

/-- From the second on, an entry reports what the numbers of two frames in a row call for. -/
theorem trackAll_reported {totals : Totals} {frames : List Mbuf} {i : Nat} {entry : Option Skip}
    (found : ((start totals).trackAll frames).skips[i + 1]? = some entry) :
    ∃ previous m, frames[i]? = some previous ∧ frames[i + 1]? = some m ∧
      entry.map Skip.amounts = amountsBetween (sequenceNumber previous) (sequenceNumber m) := by
  obtain ⟨m, before, here, compared⟩ := trackAll_entry totals found
  have inside := (List.getElem?_eq_some_iff.mp here).1
  have earlier : frames[i]? = some frames[i] := List.getElem?_eq_getElem (Nat.lt_of_succ_lt inside)
  refine ⟨_, m, earlier, here, ?_⟩
  rw [compared, trackSequence_amounts, predecessor, earlier]
  rfl

/-- The counter of lost packets moves by the sum of what is reported. -/
theorem trackAll_lost (totals : Totals) (frames : List Mbuf) :
    ((start totals).trackAll frames).totals.totalPacketsLost = totals.totalPacketsLost +
      UInt64.ofNat (((start totals).trackAll frames).skips.map (·.elim 0 Skip.lost)).sum := by
  induction frames using List.reverseRecOn with
  | nil => simp [trackAll, start]
  | append_singleton frames m ih =>
    rw [trackAll_concat, track]
    simp only [trackSequence_lost, ih, List.map_append, List.map_singleton, List.sum_append,
      List.sum_singleton, UInt64.ofNat_add, UInt64.add_assoc]

/-- What tracking a thread's frames alone adds to the packets lost. -/
def lossAlone (frames : List Mbuf) : Nat :=
  (((start ⟨0, 0⟩).trackAll frames).skips.map (·.elim 0 Skip.lost)).sum

theorem lossAlone_concat (frames : List Mbuf) (m : Mbuf) :
    lossAlone (frames ++ [m]) =
      lossAlone frames + lostBetween (predecessor frames frames.length) (sequenceNumber m) := by
  rw [lossAlone, trackAll_concat, track]
  simp only [List.map_append, List.map_singleton, List.sum_append, List.sum_singleton,
    trackSequence_amount, trackAll_seq]
  rfl

theorem sequenceNumber_lt (m : Mbuf) : sequenceNumber m < 4096 :=
  getSequenceNumberFromHeader_lt m.headers.hrzr

theorem predecessor_lt (frames : List Mbuf) (i : Nat) : predecessor frames i < 4096 := by
  cases i with
  | zero => exact Nat.zero_lt_succ _
  | succ i =>
    rw [predecessor]
    cases frames[i]? with
    | none => decide
    | some m => exact sequenceNumber_lt m

theorem lostBetween_le {p s : Nat} (first : p < 4096) (second : s < 4096) :
    lostBetween p s ≤ 4095 := by
  unfold lostBetween
  split <;> omega

theorem lossAlone_le (frames : List Mbuf) : lossAlone frames ≤ 4095 * frames.length := by
  induction frames using List.reverseRecOn with
  | nil => exact Nat.zero_le _
  | append_singleton frames m ih =>
    have bound := lostBetween_le (predecessor_lt frames frames.length) (sequenceNumber_lt m)
    rw [lossAlone_concat, List.length_append, List.length_singleton]
    omega

end Tracking

end JerryDriver
