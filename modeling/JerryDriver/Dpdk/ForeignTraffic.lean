import JerryDriver.Dpdk.LossDetection
import JerryDriver.Dpdk.RxThread

/-! Frames that are not for a stream. The port is in promiscuous mode, so such frames do
arrive, and the loop counts every frame before it looks whether the frame is for it. Two
runs are compared: over a stream's frames, and over the same frames with others inserted. -/
namespace JerryDriver
open HrzrHeaderParser Tracking

inductive Traffic where
  | original (m : Mbuf)
  | inserted (m : Mbuf)

namespace Traffic

def frame : Traffic → Mbuf
  | .original m | .inserted m => m

def originals : List Traffic → List Mbuf
  | [] => []
  | .original m :: rest => m :: originals rest
  | .inserted _ :: rest => originals rest

/-- Of a list that goes along with the traffic, the entries at the original frames. -/
def atOriginals {α : Type} : List Traffic → List α → List α
  | .original _ :: rest, entry :: entries => entry :: atOriginals rest entries
  | .inserted _ :: rest, _ :: entries => atOriginals rest entries
  | _, _ => []

/-- What the loop comes to handle of the traffic. -/
def handled (udpRxPort : UInt16) : List Traffic → List Traffic
  | [] => []
  | entry :: rest =>
    match accepts udpRxPort entry.frame with
    | .ok _ => entry :: handled udpRxPort rest
    | .error _ => [entry]

end Traffic

open Traffic

/-- Not IPv4, not UDP, or not to the stream's port. -/
def Foreign (udpRxPort : UInt16) (m : Mbuf) : Prop :=
  m.headers.etherType ≠ htons rteEtherTypeIpv4 ∨ m.headers.nextProtoId ≠ ipprotoUdp ∨
    m.headers.dstPort ≠ htons udpRxPort

/-- With the inserted frames the thread reports the same amounts at the original frames,
and ends with the same number of packets lost. -/
structure SameStatistics (traffic : List Traffic) (thread alone mixed : RxThread) : Prop where
  amounts : (atOriginals traffic (mixed.skips.drop thread.skips.length)).map (·.map Skip.amounts) =
    (alone.skips.drop thread.skips.length).map (·.map Skip.amounts)
  lost : mixed.totals.totalPacketsLost = alone.totals.totalPacketsLost

/-- For every original frame: the frame right before it carries the number that the
original frame before it carries, or neither of the two steps to it is a jump. -/
def Spared : (last previous : Int) → List Traffic → Prop
  | _, _, [] => True
  | last, _, .inserted m :: rest => Spared last (sequenceNumber m) rest
  | last, previous, .original m :: rest =>
    (last = previous ∨ ¬ Jumps last (sequenceNumber m) ∧ ¬ Jumps previous (sequenceNumber m)) ∧
      Spared (sequenceNumber m) (sequenceNumber m) rest

/-- The distances of the jumps into inserted frames. -/
def insertedLoss : (previous : Int) → List Traffic → Nat
  | _, [] => 0
  | _, .original m :: rest => insertedLoss (sequenceNumber m) rest
  | previous, .inserted m :: rest =>
    lostBetween previous (sequenceNumber m) + insertedLoss (sequenceNumber m) rest

def amountsFrom : Int → List Mbuf → List (Option (Nat × Nat × Int))
  | _, [] => []
  | seq, m :: rest => amountsBetween seq (sequenceNumber m) :: amountsFrom (sequenceNumber m) rest

def lossFrom : Int → List Mbuf → Nat
  | _, [] => 0
  | seq, m :: rest => lostBetween seq (sequenceNumber m) + lossFrom (sequenceNumber m) rest

/-- A run's entries and its counters, by recursion over the frames. -/
theorem trackAll_from (tracking : Tracking) (frames : List Mbuf) :
    ∃ entries, (tracking.trackAll frames).skips = tracking.skips ++ entries ∧
      entries.map (·.map Skip.amounts) = amountsFrom tracking.seq frames ∧
      (tracking.trackAll frames).totals =
        tracking.totals.plus (lossFrom tracking.seq frames) frames.length := by
  induction frames generalizing tracking with
  | nil => exact ⟨[], (List.append_nil _).symm, rfl, (Totals.plus_zero _).symm⟩
  | cons m rest ih =>
    obtain ⟨entries, skips, amounts, totals⟩ := ih (tracking.track m)
    have seq : (tracking.track m).seq = sequenceNumber m := trackSequence_seq ..
    rw [seq] at amounts totals
    refine ⟨(trackSequence tracking.seq tracking.totals m.headers.hrzr).2.2 :: entries, ?_, ?_, ?_⟩
    · rw [trackAll, List.foldl_cons, ← trackAll, skips]
      simp only [track, List.append_assoc, List.singleton_append]
    · rw [List.map_cons, amounts, trackSequence_amounts]
      rfl
    · rw [track_totals, Totals.plus_plus, Nat.add_comm 1] at totals
      exact totals

variable {udpRxPort : UInt16} {thread : RxThread} {traffic : List Traffic} {last previous : Int}

theorem Foreign.refused {m : Mbuf} (foreign : Foreign udpRxPort m) :
    accepts udpRxPort m = .ok false := by
  refine if_neg ?_
  rintro ⟨protocol, type, port, -⟩
  rcases foreign with other | other | other
  · exact other type
  · exact other protocol
  · exact other port

theorem handled_frames (traffic : List Traffic) :
    (handled udpRxPort traffic).map frame =
      RxThread.handledFrames udpRxPort (traffic.map frame) := by
  induction traffic with
  | nil => rfl
  | cons entry rest ih =>
    rw [handled, List.map_cons, RxThread.handledFrames]
    cases accepts udpRxPort entry.frame with
    | ok keep => rw [List.map_cons, ih]
    | error thrown => rfl

theorem handled_eq
    (decided : ∀ entry ∈ traffic, ∃ keep, accepts udpRxPort entry.frame = .ok keep) :
    handled udpRxPort traffic = traffic := by
  induction traffic with
  | nil => rfl
  | cons entry rest ih =>
    obtain ⟨keep, known⟩ := decided entry List.mem_cons_self
    have later := ih fun other member => decided other (List.mem_cons_of_mem _ member)
    rw [handled, known, later]

/-- Frames for others never throw, so both runs end at the same original frame. -/
theorem handled_originals (foreign : ∀ m, .inserted m ∈ traffic → Foreign udpRxPort m) :
    originals (handled udpRxPort traffic) =
      RxThread.handledFrames udpRxPort (originals traffic) := by
  induction traffic with
  | nil => rfl
  | cons entry rest ih =>
    have later := ih fun m member => foreign m (List.mem_cons_of_mem _ member)
    cases entry with
    | inserted m =>
      have refused := (foreign m List.mem_cons_self).refused
      simp only [handled, frame, refused, originals, later]
    | original m =>
      simp only [handled, frame, originals, RxThread.handledFrames]
      cases accepts udpRxPort m with
      | ok keep => simp only [originals, later]
      | error thrown => rfl

theorem handled_initial (udpRxPort : UInt16) (traffic : List Traffic) :
    handled udpRxPort traffic <+: traffic := by
  induction traffic with
  | nil => exact List.prefix_refl _
  | cons entry rest ih =>
    rw [handled]
    cases accepts udpRxPort entry.frame with
    | ok keep => exact (List.prefix_cons_inj entry).mpr ih
    | error thrown => exact (List.prefix_cons_inj entry).mpr List.nil_prefix

theorem atOriginals_map {α β : Type} (f : α → β) (traffic : List Traffic) (entries : List α) :
    (atOriginals traffic entries).map f = atOriginals traffic (entries.map f) := by
  induction traffic generalizing entries with
  | nil => rfl
  | cons entry rest ih =>
    cases entries with
    | nil => cases entry <;> rfl
    | cons head tail =>
      cases entry with
      | original m => simp only [atOriginals, List.map_cons, ih]
      | inserted m => simp only [atOriginals, List.map_cons, ih]

theorem atOriginals_append {α : Type} {first : List Traffic} {entries : List α}
    (length : entries.length = first.length) (rest : List Traffic) :
    atOriginals (first ++ rest) entries = atOriginals first entries := by
  induction first generalizing entries with
  | nil =>
    rw [List.length_eq_zero_iff.mp length]
    cases rest with
    | nil => rfl
    | cons entry rest => cases entry <;> rfl
  | cons entry first ih =>
    cases entries with
    | nil => contradiction
    | cons head tail =>
      have shorter := Nat.succ.inj length
      cases entry with
      | original m => simp only [List.cons_append, atOriginals, ih shorter]
      | inserted m => simp only [List.cons_append, atOriginals, ih shorter]

theorem length_amountsFrom (seq : Int) (frames : List Mbuf) :
    (amountsFrom seq frames).length = frames.length := by
  induction frames generalizing seq with
  | nil => rfl
  | cons m rest ih => rw [amountsFrom, List.length_cons, List.length_cons, ih]

/-- The amounts at the original frames are those without the others exactly when the
original frames are spared. -/
theorem amounts_eq_iff (traffic : List Traffic) (last previous : Int) :
    atOriginals traffic (amountsFrom previous (traffic.map frame)) =
      amountsFrom last (originals traffic) ↔ Spared last previous traffic := by
  induction traffic generalizing last previous with
  | nil => simp [atOriginals, originals, amountsFrom, Spared]
  | cons entry rest ih =>
    cases entry with
    | inserted m => exact ih last (sequenceNumber m)
    | original m =>
      simp only [List.map_cons, frame, originals, amountsFrom, atOriginals, Spared,
        List.cons.injEq, ih]
      rw [eq_comm, amountsBetween_eq_iff]

theorem lostBetween_congr {p q number : Int}
    (same : p = q ∨ ¬ Jumps p number ∧ ¬ Jumps q number) :
    lostBetween p number = lostBetween q number := by
  rcases same with rfl | ⟨first, second⟩
  · rfl
  · rw [lostBetween, lostBetween, if_neg first, if_neg second]

/-- Where the original frames are spared, the inserted ones add what they bring themselves. -/
theorem loss_eq_of_spared (traffic : List Traffic) (last previous : Int)
    (spared : Spared last previous traffic) :
    lossFrom previous (traffic.map frame) =
      lossFrom last (originals traffic) + insertedLoss previous traffic := by
  induction traffic generalizing last previous with
  | nil => rfl
  | cons entry rest ih =>
    cases entry with
    | inserted m =>
      have later := ih last (sequenceNumber m) spared
      simp only [List.map_cons, frame, lossFrom, originals, insertedLoss, later]
      omega
    | original m =>
      have later := ih (sequenceNumber m) (sequenceNumber m) spared.2
      have same := lostBetween_congr spared.1
      simp only [List.map_cons, frame, lossFrom, originals, insertedLoss, later, same]
      omega

private theorem add_ofNat_eq_iff (total : UInt64) (x y : Nat) :
    total + UInt64.ofNat (x + y) = total + UInt64.ofNat x ↔ y % 2 ^ 64 = 0 := by
  rw [UInt64.ofNat_add, ← UInt64.add_assoc]
  constructor
  · intro same
    have zero : UInt64.ofNat y = 0 := by simpa using same
    simpa using congrArg UInt64.toNat zero
  · intro zero
    have nothing : UInt64.ofNat y = 0 := by
      apply UInt64.toNat_inj.mp
      simpa using zero
    rw [nothing, UInt64.add_zero]

/-- What a run leaves of the statistics, in terms of the frames it came to handle. -/
theorem rxThread_from (udpRxPort : UInt16) (running : thread.escaped = none)
    (bursts : List Burst) :
    ∃ entries, (RxThread.rxThread udpRxPort thread bursts).skips = thread.skips ++ entries ∧
      entries.map (·.map Skip.amounts) = amountsFrom thread.seq
        (RxThread.handledFrames udpRxPort (bursts.flatMap Subtype.val)) ∧
      (RxThread.rxThread udpRxPort thread bursts).totals = thread.totals.plus
        (lossFrom thread.seq (RxThread.handledFrames udpRxPort (bursts.flatMap Subtype.val)))
        (RxThread.handledFrames udpRxPort (bursts.flatMap Subtype.val)).length := by
  have tracked : (RxThread.rxThread udpRxPort thread bursts).tracking = thread.tracking.trackAll
      (RxThread.handledFrames udpRxPort (bursts.flatMap Subtype.val)) := by
    rw [RxThread.rxThread_eq]
    exact RxThread.foldl_tracking running _
  obtain ⟨entries, skips, amounts, totals⟩ := trackAll_from thread.tracking
    (RxThread.handledFrames udpRxPort (bursts.flatMap Subtype.val))
  rw [← tracked] at skips totals
  exact ⟨entries, skips, amounts, totals⟩

/-- Two runs that end at the same original frame: the statistics agree if and only if every
original frame is spared and the jumps into inserted frames add nothing to the counter. -/
theorem sameStatistics_iff (running : thread.escaped = none) {alone mixed : List Burst}
    (own : RxThread.handledFrames udpRxPort (alone.flatMap Subtype.val) =
      originals (handled udpRxPort traffic))
    (all : mixed.flatMap Subtype.val = traffic.map frame) :
    SameStatistics traffic thread (RxThread.rxThread udpRxPort thread alone)
        (RxThread.rxThread udpRxPort thread mixed) ↔
      Spared thread.seq thread.seq (handled udpRxPort traffic) ∧
        insertedLoss thread.seq (handled udpRxPort traffic) % 2 ^ 64 = 0 := by
  obtain ⟨entries, skips, amounts, totals⟩ := rxThread_from udpRxPort running alone
  obtain ⟨others, mixedSkips, mixedAmounts, mixedTotals⟩ := rxThread_from udpRxPort running mixed
  have lost := congrArg Totals.totalPacketsLost totals
  have mixedLost := congrArg Totals.totalPacketsLost mixedTotals
  simp only [Totals.plus] at lost mixedLost
  rw [own] at amounts lost
  rw [all, ← handled_frames] at mixedAmounts mixedLost
  have atOwn : (atOriginals traffic others).map (·.map Skip.amounts) = atOriginals
      (handled udpRxPort traffic)
      (amountsFrom thread.seq ((handled udpRxPort traffic).map frame)) := by
    obtain ⟨rest, whole⟩ := handled_initial udpRxPort traffic
    have length : (amountsFrom thread.seq ((handled udpRxPort traffic).map frame)).length =
        (handled udpRxPort traffic).length := by
      rw [length_amountsFrom, List.length_map]
    have longer := atOriginals_append length rest
    rw [whole] at longer
    rw [atOriginals_map, mixedAmounts, longer]
  constructor
  · rintro ⟨sameAmounts, sameLost⟩
    rw [skips, mixedSkips, List.drop_left, List.drop_left, atOwn, amounts, amounts_eq_iff]
      at sameAmounts
    refine ⟨sameAmounts, ?_⟩
    rw [lost, mixedLost, loss_eq_of_spared _ _ _ sameAmounts] at sameLost
    exact (add_ofNat_eq_iff _ _ _).mp sameLost
  · rintro ⟨spared, nothing⟩
    constructor
    · rw [skips, mixedSkips, List.drop_left, List.drop_left, atOwn, amounts, amounts_eq_iff]
      exact spared
    · rw [lost, mixedLost, loss_eq_of_spared _ _ _ spared]
      exact (add_ofNat_eq_iff _ _ _).mpr nothing

/-- For every sequence of frames and every way of inserting frames for others: the
statistics of the stream stay the same if and only if every original frame is spared and
the jumps into inserted frames add nothing to the counter. -/
theorem foreign_traffic_iff (udpRxPort : UInt16) (thread : RxThread)
    (running : thread.escaped = none) (traffic : List Traffic)
    (foreign : ∀ m, .inserted m ∈ traffic → Foreign udpRxPort m) (alone mixed : List Burst)
    (own : alone.flatMap Subtype.val = originals traffic)
    (all : mixed.flatMap Subtype.val = traffic.map frame) :
    SameStatistics traffic thread (RxThread.rxThread udpRxPort thread alone)
        (RxThread.rxThread udpRxPort thread mixed) ↔
      Spared thread.seq thread.seq (handled udpRxPort traffic) ∧
        insertedLoss thread.seq (handled udpRxPort traffic) % 2 ^ 64 = 0 := by
  refine sameStatistics_iff running ?_ all
  rw [own, handled_originals foreign]

/-- A frame to another port, with a number where the HRZR header would lie. -/
def foreignFrame (n : Nat) : Mbuf :=
  .ofUdp 6000 [UInt8.ofNat (n / 256), UInt8.ofNat n, 0, 0, 0, 0, 0, 0]

theorem foreign_traffic_same_number :
    SameStatistics [.original (numberedFrame 1), .inserted (foreignFrame 1),
        .original (numberedFrame 2)] (.start ⟨0, 0⟩)
      (RxThread.rxThread 5000 (.start ⟨0, 0⟩) [⟨[numberedFrame 1, numberedFrame 2], by decide⟩])
      (RxThread.rxThread 5000 (.start ⟨0, 0⟩)
        [⟨[numberedFrame 1, foreignFrame 1, numberedFrame 2], by decide⟩]) := by
  have foreign : Foreign 5000 (foreignFrame 1) := .inr (.inr (by decide))
  have passed (n : Nat) : accepts 5000 (numberedFrame n) = .ok false := by
    have length : (numberedFrame n).pktLen = 50 := rfl
    have short : (50 : Nat) ≠ Definitions.payloadSize + HrzrPacketAllHeaders.size := by decide
    rw [accepts, if_neg]
    rintro ⟨-, -, -, full⟩
    exact short (length.symm.trans full)
  have whole : handled 5000 [.original (numberedFrame 1), .inserted (foreignFrame 1),
      .original (numberedFrame 2)] = [.original (numberedFrame 1), .inserted (foreignFrame 1),
        .original (numberedFrame 2)] := by
    simp only [handled, frame, passed, foreign.refused]
  refine (foreign_traffic_iff 5000 (.start ⟨0, 0⟩) rfl _ ?_ _ _ rfl rfl).mpr ?_
  · intro m member
    simp only [List.mem_cons, reduceCtorEq, Traffic.inserted.injEq, List.not_mem_nil, or_false,
      false_or] at member
    subst member
    exact foreign
  · rw [whole]
    exact ⟨⟨.inl rfl, .inl (by decide), trivial⟩, by decide⟩

/-- Between the stream's packets 1 and 2 comes a frame to another port with 100 where the
number would be: packet 2 is reported and 197 packets count as lost, instead of none. -/
theorem foreign_frame_disturbs :
    Foreign 5000 (foreignFrame 100) ∧
    ¬ SameStatistics [.original (numberedFrame 1), .inserted (foreignFrame 100),
        .original (numberedFrame 2)] (.start ⟨0, 0⟩)
      (RxThread.rxThread 5000 (.start ⟨0, 0⟩) [⟨[numberedFrame 1, numberedFrame 2], by decide⟩])
      (RxThread.rxThread 5000 (.start ⟨0, 0⟩)
        [⟨[numberedFrame 1, foreignFrame 100, numberedFrame 2], by decide⟩]) := by
  refine ⟨.inr (.inr (by decide)), fun same => ?_⟩
  exact absurd same.lost (by decide)

end JerryDriver
