import JerryDriver.Dpdk.Delivery
import JerryDriver.Dpdk.LossDetection
import JerryDriver.Dpdk.PacketSteps
import Mathlib.Algebra.BigOperators.Ring.Finset
import Mathlib.Algebra.Order.BigOperators.Group.Finset
import Mathlib.Algebra.Order.Field.Basic
import Mathlib.Algebra.Order.Ring.Rat

/-! The counters that the receive threads of all streams share. Each thread adds to both
what its own packets call for, so in every interleaving the counters are sums over the
streams of what each stream adds alone. -/
namespace JerryDriver.PacketSteps
open DpdkSource Transition Tracking
open Finset (range)

/-- The packets that the threads of all streams have handled. -/
def packetsProcessed (setup : Setup) (state : State) : Nat :=
  ∑ n ∈ range setup.numStreams, (state.workers n).processed.length

/-- What the streams add to the packets lost, each on its own. -/
def packetsLost (setup : Setup) (state : State) : Nat :=
  ∑ n ∈ range setup.numStreams, lossAlone (state.workers n).processed

/-- The counters were read after some of the packets, and at least one. -/
def RatedWithin (packets : Nat) (skip : Skip) : Prop :=
  ∃ count lost, 0 < count ∧ count ≤ packets ∧ lost ≤ 4095 * count ∧
    skip.rate = (UInt64.ofNat lost, UInt64.ofNat (lost + count))

structure Counted (setup : Setup) (state : State) : Prop where
  seq : ∀ n, (state.workers n).seq =
    predecessor (state.workers n).processed (state.workers n).processed.length
  lost : state.totals.totalPacketsLost = UInt64.ofNat (packetsLost setup state)
  total : state.totals.totalPackets =
    UInt64.ofNat (packetsLost setup state + packetsProcessed setup state)
  rates : ∀ n skip, some skip ∈ (state.workers n).skips →
    RatedWithin (packetsProcessed setup state) skip

theorem packetsLost_le (setup : Setup) (state : State) :
    packetsLost setup state ≤ 4095 * packetsProcessed setup state := by
  rw [packetsLost, packetsProcessed, Finset.mul_sum]
  exact Finset.sum_le_sum fun n _ => lossAlone_le _

variable {setup : Setup} {state after : State} {action : Action} {actions : List Action}

/-- Only the handling of a packet counts, and it counts as tracking does. -/
theorem Turn.counts {udpRxPort : UInt16} {before now : Worker} {totals : Totals}
    (turn : Turn udpRxPort before totals now after action) :
    (now.processed = before.processed ∧ now.seq = before.seq ∧ now.skips = before.skips ∧
      after.totals = totals) ∨
    ∃ m, now.processed = before.processed ++ [m] ∧
      (⟨now.seq, after.totals, now.skips⟩ : Tracking) =
        Tracking.track ⟨before.seq, totals, before.skips⟩ m := by
  cases turn with
  | rxBurst numStream burst idle worker kept running =>
    subst worker
    exact .inl ⟨rfl, rfl, rfl, kept⟩
  | getSamples numStream numberOfSamples burst samples idle worker kept running =>
    subst worker
    exact .inl ⟨rfl, rfl, rfl, kept⟩
  | decodePacket numStream m rest total samples next worker kept running =>
    subst worker
    exact .inl ⟨rfl, rfl, rfl, kept⟩
  | processPacket numStream m rest thread next processed worker counted terminated =>
    have tracked : thread.tracking = (before.thread totals).tracking.track m := by
      rw [processed]
      exact RxThread.processPacket_tracking rfl
    subst worker
    refine .inr ⟨m, rfl, ?_⟩
    rw [counted]
    exact tracked

private theorem sum_update {processed : Nat → List Mbuf} {k numStreams : Nat} (m : Mbuf)
    (measure : List Mbuf → Nat) {grown : Nat} (within : k < numStreams)
    (grows : measure (processed k ++ [m]) = measure (processed k) + grown) :
    ∑ n ∈ range numStreams, measure (Function.update processed k (processed k ++ [m]) n) =
      ∑ n ∈ range numStreams, measure (processed n) + grown := by
  have each (n : Nat) : measure (Function.update processed k (processed k ++ [m]) n) =
      measure (processed n) + if n = k then grown else 0 := by
    by_cases here : n = k
    · subst here
      rw [Function.update_self, if_pos rfl, grows]
    · rw [Function.update_of_ne here, if_neg here, Nat.add_zero]
  simp only [each, Finset.sum_add_distrib, Finset.sum_ite_eq', Finset.mem_range, within, if_true]

/-- The two sums after a packet. -/
theorem sums_processed {m : Mbuf} {k : Nat} {now : Worker}
    (workers : after.workers = Function.update state.workers k now)
    (processed : now.processed = (state.workers k).processed ++ [m])
    (within : k < setup.numStreams) :
    packetsProcessed setup after = packetsProcessed setup state + 1 ∧
      packetsLost setup after = packetsLost setup state +
        lostBetween (predecessor (state.workers k).processed (state.workers k).processed.length)
          (sequenceNumber m) := by
  have history (n : Nat) : (after.workers n).processed =
      Function.update (fun n => (state.workers n).processed) k
        ((state.workers k).processed ++ [m]) n := by
    rw [workers]
    by_cases here : n = k
    · subst here
      rw [Function.update_self, Function.update_self, processed]
    · rw [Function.update_of_ne here, Function.update_of_ne here]
  simp only [packetsProcessed, packetsLost, history]
  constructor
  · exact sum_update m List.length within List.length_append
  · exact sum_update m lossAlone within (lossAlone_concat _ m)

theorem RatedWithin.mono {packets more : Nat} {skip : Skip} (rated : RatedWithin packets skip)
    (later : packets ≤ more) : RatedWithin more skip := by
  obtain ⟨count, lost, positive, within, bound, rate⟩ := rated
  exact ⟨count, lost, positive, within.trans later, bound, rate⟩

/-- A turn that handles no packet leaves the counters and what they count alone. -/
theorem counted_idle {k : Nat} {now : Worker}
    (workers : after.workers = Function.update state.workers k now)
    (processed : now.processed = (state.workers k).processed)
    (seq : now.seq = (state.workers k).seq)
    (skips : now.skips = (state.workers k).skips) (totals : after.totals = state.totals)
    (held : Counted setup state) : Counted setup after := by
  have same (n : Nat) : (after.workers n).processed = (state.workers n).processed ∧
      (after.workers n).seq = (state.workers n).seq ∧
      (after.workers n).skips = (state.workers n).skips := by
    rw [workers]
    by_cases own : n = k
    · subst own
      rw [Function.update_self]
      exact ⟨processed, seq, skips⟩
    · rw [Function.update_of_ne own]
      exact ⟨rfl, rfl, rfl⟩
  have counts : packetsProcessed setup after = packetsProcessed setup state := by
    simp only [packetsProcessed, same]
  have losses : packetsLost setup after = packetsLost setup state := by
    simp only [packetsLost, same]
  constructor
  · intro n
    rw [(same n).2.1, (same n).1, held.seq n]
  · rw [totals, losses, held.lost]
  · rw [totals, losses, counts, held.total]
  · intro n skip member
    rw [(same n).2.2] at member
    rw [counts]
    exact held.rates n skip member

/-- A packet adds to both counters what it adds to the two sums. -/
theorem counted_packet {m : Mbuf} {k : Nat} {now : Worker}
    (workers : after.workers = Function.update state.workers k now)
    (processed : now.processed = (state.workers k).processed ++ [m])
    (within : k < setup.numStreams)
    (tracked : (⟨now.seq, after.totals, now.skips⟩ : Tracking) =
      Tracking.track ⟨(state.workers k).seq, state.totals, (state.workers k).skips⟩ m)
    (held : Counted setup state) : Counted setup after := by
  have kept (n : Nat) (apart : n ≠ k) : after.workers n = state.workers n := by
    rw [workers, Function.update_of_ne apart]
  have here : after.workers k = now := by rw [workers, Function.update_self]
  obtain ⟨counts, losses⟩ := sums_processed workers processed within
  simp only [Tracking.track, Tracking.mk.injEq] at tracked
  obtain ⟨seq, totals, skips⟩ := tracked
  have reported := totals
  rw [trackSequence_totals, held.seq] at totals
  have lost : after.totals.totalPacketsLost = UInt64.ofNat (packetsLost setup after) := by
    rw [totals, losses, UInt64.ofNat_add, held.lost]
    rfl
  have total : after.totals.totalPackets =
      UInt64.ofNat (packetsLost setup after + packetsProcessed setup after) := by
    rw [totals, counts, losses, held.total]
    simp only [UInt64.ofNat_add]
    have one : UInt64.ofNat 1 = 1 := rfl
    rw [one]
    ac_rfl
  refine ⟨?_, lost, total, ?_⟩
  · intro n
    by_cases own : n = k
    · subst own
      rw [here, seq, processed, trackSequence_seq, predecessor_last]
      rfl
    · rw [kept n own]
      exact held.seq n
  · intro n skip member
    by_cases own : n = k
    · subst own
      rw [here, skips, List.mem_append, List.mem_singleton] at member
      rcases member with earlier | last
      · exact (held.rates _ skip earlier).mono (by omega)
      · refine ⟨packetsProcessed setup after, packetsLost setup after, by omega, Nat.le_refl _,
          packetsLost_le setup after, ?_⟩
        rw [trackSequence_rate last.symm, ← reported, lost, total]
    · rw [kept n own] at member
      exact (held.rates n skip member).mono (by omega)

theorem counted_step (taken : step setup state action = some after)
    (held : Counted setup state) : Counted setup after := by
  obtain ⟨-, within, now, workers, turn⟩ := step_turn taken
  obtain ⟨processed, seq, skips, totals⟩ | ⟨m, processed, tracked⟩ := turn.counts
  · exact counted_idle workers processed seq skips totals held
  · exact counted_packet workers processed within tracked held

theorem start_counted (setup : Setup) : Counted setup start := by
  have nothing : packetsLost setup start = 0 ∧ packetsProcessed setup start = 0 :=
    ⟨Finset.sum_eq_zero fun _ _ => rfl, Finset.sum_eq_zero fun _ _ => rfl⟩
  constructor
  · exact fun _ => rfl
  · rw [nothing.1]
    rfl
  · rw [nothing.1, nothing.2]
    rfl
  · intro n skip member
    contradiction

theorem run_counted (finished : run (step setup) start actions = some state) :
    Counted setup state :=
  run_invariant (fun held taken => counted_step taken held) finished (start_counted setup)

/-- While fewer than 2^50 packets have been handled the counters hold the sums themselves. -/
theorem Counted.exact {setup : Setup} {state : State} (counted : Counted setup state)
    (few : packetsProcessed setup state < 2 ^ 50) :
    state.totals.totalPacketsLost.toNat = packetsLost setup state ∧
      state.totals.totalPackets.toNat = packetsLost setup state + packetsProcessed setup state := by
  have bound := packetsLost_le setup state
  rw [counted.lost, counted.total]
  constructor
  · exact UInt64.toNat_ofNat_of_lt' (by simp only [UInt64.size]; omega)
  · exact UInt64.toNat_ofNat_of_lt' (by simp only [UInt64.size]; omega)

theorem RatedWithin.below_one {packets : Nat} {skip : Skip} (rated : RatedWithin packets skip)
    (few : packets < 2 ^ 50) :
    skip.rate.2 ≠ 0 ∧ (skip.rate.1.toNat : ℚ) / skip.rate.2.toNat < 1 := by
  obtain ⟨count, lost, positive, within, bound, rate⟩ := rated
  have first : (UInt64.ofNat lost).toNat = lost :=
    UInt64.toNat_ofNat_of_lt' (by simp only [UInt64.size]; omega)
  have second : (UInt64.ofNat (lost + count)).toNat = lost + count :=
    UInt64.toNat_ofNat_of_lt' (by simp only [UInt64.size]; omega)
  rw [rate]
  constructor
  · intro zero
    have nothing := congrArg UInt64.toNat zero
    rw [second] at nothing
    exact absurd nothing (by simp only [UInt64.toNat_zero]; omega)
  · have divisor : (0 : ℚ) < (lost + count : Nat) := Nat.cast_pos.mpr (by omega)
    simp only [first, second]
    rw [div_lt_one divisor]
    exact Nat.cast_lt.mpr (by omega)

/-- In every reachable state the number of packets is the number lost and those handled;
the number lost is the sum of what each stream adds alone, so that both depend on what
each thread has handled and not on the interleaving; and below 2^50 packets neither
counter wraps and every rate that was printed is a quotient below 1. -/
theorem counters_consistent (finished : run (step setup) start actions = some state) :
    state.totals.totalPackets =
      state.totals.totalPacketsLost + UInt64.ofNat (packetsProcessed setup state) ∧
    state.totals.totalPacketsLost =
      UInt64.ofNat (∑ n ∈ range setup.numStreams, lossAlone (state.workers n).processed) ∧
    (∀ others other, run (step setup) start others = some other →
      (∀ n, (other.workers n).processed = (state.workers n).processed) →
        other.totals = state.totals) ∧
    (packetsProcessed setup state < 2 ^ 50 →
      state.totals.totalPacketsLost.toNat =
        ∑ n ∈ range setup.numStreams, lossAlone (state.workers n).processed ∧
      state.totals.totalPackets.toNat =
        state.totals.totalPacketsLost.toNat + packetsProcessed setup state ∧
      ∀ n skip, some skip ∈ (state.workers n).skips →
        skip.rate.2 ≠ 0 ∧ (skip.rate.1.toNat : ℚ) / skip.rate.2.toNat < 1) := by
  have counted := run_counted finished
  refine ⟨?_, counted.lost, fun others other reached same => ?_, fun few => ?_⟩
  · rw [counted.total, counted.lost, UInt64.ofNat_add]
  · have again := run_counted reached
    have counts : packetsProcessed setup other = packetsProcessed setup state := by
      simp only [packetsProcessed, same]
    have losses : packetsLost setup other = packetsLost setup state := by
      simp only [packetsLost, same]
    have first : other.totals.totalPackets = state.totals.totalPackets := by
      rw [again.total, counted.total, counts, losses]
    have second : other.totals.totalPacketsLost = state.totals.totalPacketsLost := by
      rw [again.lost, counted.lost, losses]
    exact congrArg₂ Totals.mk first second
  · obtain ⟨lost, total⟩ := counted.exact few
    refine ⟨lost, by rw [total, lost], fun n skip member => ?_⟩
    exact (counted.rates n skip member).below_one few

/-- Stream 0 receives the numbers 4 and 8, stream 1 the number 6, each counted as many lost
as its step is wide. Between them a caller of stream 1 decodes a packet. -/
def crossing : List Action :=
  [.rxBurst 0 ⟨[numberedFrame 4, numberedFrame 8], Nat.le_of_ble_eq_true rfl⟩, .processPacket 0,
    .rxBurst 1 ⟨[numberedFrame 6], Nat.le_of_ble_eq_true rfl⟩, .processPacket 1,
    .getSamples 1 366 [dataFrame] clearedSamples, .processPacket 0, .decodePacket 1]

/-- The same packets, one stream after the other. -/
def oneByOne : List Action :=
  [.rxBurst 1 ⟨[numberedFrame 6], Nat.le_of_ble_eq_true rfl⟩, .processPacket 1,
    .rxBurst 0 ⟨[numberedFrame 4, numberedFrame 8], Nat.le_of_ble_eq_true rfl⟩, .processPacket 0,
    .processPacket 0]

/-- The packets that each stream's thread handles in both. -/
def handledBy : Nat → List Mbuf
  | 0 => [numberedFrame 4, numberedFrame 8]
  | 1 => [numberedFrame 6]
  | _ => []

theorem run_crossing : ∃ state, run (step twoStreams) start crossing = some state ∧
    state.totals.totalPacketsLost = 14 ∧ packetsProcessed twoStreams state = 3 ∧
    ∀ n, (state.workers n).processed = handledBy n := by
  refine ⟨_, rfl, rfl, rfl, fun n => ?_⟩
  rcases n with _ | _ | n
  all_goals rfl

theorem run_oneByOne : ∃ state, run (step twoStreams) start oneByOne = some state ∧
    ∀ n, (state.workers n).processed = handledBy n := by
  refine ⟨_, rfl, fun n => ?_⟩
  rcases n with _ | _ | n
  all_goals rfl

theorem counters_consistent_crossing :
    ∃ state other, run (step twoStreams) start crossing = some state ∧
      run (step twoStreams) start oneByOne = some other ∧ other.totals = state.totals ∧
      state.totals.totalPackets =
        state.totals.totalPacketsLost + UInt64.ofNat (packetsProcessed twoStreams state) ∧
      state.totals.totalPacketsLost = 14 ∧ packetsProcessed twoStreams state = 3 := by
  obtain ⟨state, finished, lost, count, handled⟩ := run_crossing
  obtain ⟨other, reached, again⟩ := run_oneByOne
  obtain ⟨sum, -, same, -⟩ := counters_consistent finished
  exact ⟨state, other, finished, reached,
    same oneByOne other reached fun n => (again n).trans (handled n).symm, sum, lost, count⟩

end JerryDriver.PacketSteps
