import JerryDriver.Dpdk.DumpQueues
import JerryDriver.Dpdk.RxThread
import JerryDriver.Library.SerialNumber

/-! Loss detection over whole runs. A sender numbers its packets consecutively modulo
4096, some of them are dropped, and the threads see the numbers of the others. Both
threads take the number 0 for the first packet's predecessor, exempt every pair that
starts at 4095 or ends at 0, and add distances where gaps are meant. -/
namespace JerryDriver
open Tracking SerialNumber

/-- The frames that arrive from a sender numbering from `start`: the packets at the given
positions of its stream, in order, fewer than 4096 missing at a time. -/
structure SenderRun (start : Nat) (positions : List Nat) (frames : List Mbuf) : Prop where
  ascending : positions.IsChain fun p q => p < q ∧ q - p ≤ 4096
  numbered : frames.map sequenceNumber = positions.map (number 4096 start)

/-- How many packets are missing right before the one received at an index. -/
def missing (positions : List Nat) (i : Nat) : Nat :=
  positions.getD i 0 - positions.getD (i - 1) 0 - 1

def carried (start : Nat) (positions : List Nat) (i : Nat) : Nat :=
  number 4096 start (positions.getD i 0)

def previous (start : Nat) (positions : List Nat) : Nat → Nat
  | 0 => 0
  | i + 1 => carried start positions i

variable {start : Nat} {positions : List Nat} {frames handled : List Mbuf} {totals : Totals}
  {i : Nat} {entry : Option Skip}

theorem carried_lt : carried start positions i < 4096 := number_lt (by decide)

theorem SenderRun.number_at (sent : SenderRun start positions frames) {m : Mbuf}
    (found : frames[i]? = some m) :
    i < positions.length ∧ sequenceNumber m = carried start positions i := by
  have number := congrArg (·[i]?) sent.numbered
  simp only [List.getElem?_map, found, Option.map_some] at number
  obtain ⟨position, here, same⟩ := Option.map_eq_some_iff.mp number.symm
  obtain ⟨within, -⟩ := List.getElem?_eq_some_iff.mp here
  refine ⟨within, ?_⟩
  rw [← same, carried, List.getD_eq_getElem?_getD, here, Option.getD_some]

theorem SenderRun.gap_carried (sent : SenderRun start positions frames)
    (within : i + 1 < positions.length) :
    gap 4096 (carried start positions i) (carried start positions (i + 1)) =
      missing positions (i + 1) := by
  obtain ⟨later, near⟩ := List.isChain_iff_getElem.mp sent.ascending i within
  rw [carried, carried, missing, Nat.add_sub_cancel,
    List.getD_eq_getElem _ _ within, List.getD_eq_getElem _ _ (Nat.lt_of_succ_lt within)]
  exact gap_number (by decide) later near

theorem SenderRun.compared (sent : SenderRun start positions frames) (part : handled <+: frames)
    (found : ((Tracking.start totals).trackAll handled).skips[i]? = some entry) :
    i < positions.length ∧ ∃ m before, sequenceNumber m = carried start positions i ∧
      entry = (trackSequence (previous start positions i) before m.headers.hrzr).2.2 := by
  obtain ⟨m, before, present, compared⟩ := trackAll_entry totals found
  obtain ⟨rest, rfl⟩ := part
  have inside : i < handled.length := (List.getElem?_eq_some_iff.mp present).1
  have received : (handled ++ rest)[i]? = some m := by
    rw [List.getElem?_append_left inside, present]
  obtain ⟨within, number⟩ := sent.number_at received
  refine ⟨within, m, before, number, ?_⟩
  cases i with
  | zero => exact compared
  | succ i =>
    obtain ⟨other, there⟩ : ∃ other, handled[i]? = some other :=
      ⟨_, List.getElem?_eq_getElem (Nat.lt_of_succ_lt inside)⟩
    have earlier := sent.number_at (i := i) (m := other)
      (by rw [List.getElem?_append_left (Nat.lt_of_succ_lt inside), there])
    rw [compared, predecessor, there, previous, ← earlier.2]
    rfl

theorem SenderRun.entered_iff (sent : SenderRun start positions frames) (part : handled <+: frames)
    (found : ((Tracking.start totals).trackAll handled).skips[i]? = some entry) :
    entry.isSome = true ↔ carried start positions i ≠ previous start positions i + 1 ∧
      previous start positions i ≠ 4095 ∧ carried start positions i ≠ 0 := by
  obtain ⟨-, m, before, number, rfl⟩ := sent.compared part found
  rw [trackSequence_skip_isSome, ← number, sequenceNumber]
  omega

/-- The packets at which the branch is right: the first only with the numbers 0 and 1, a
later one unless a gap starts at 4095 or ends at 0. -/
def Classified (start : Nat) (positions : List Nat) : Nat → Prop
  | 0 => carried start positions 0 = 0 ∨ carried start positions 0 = 1
  | i + 1 => missing positions (i + 1) = 0 ∨
    (carried start positions i ≠ 4095 ∧ carried start positions (i + 1) ≠ 0)

theorem SenderRun.classified_iff (sent : SenderRun start positions frames)
    (part : handled <+: frames)
    (found : ((Tracking.start totals).trackAll handled).skips[i]? = some entry) :
    (entry.isSome = true ↔ 0 < missing positions i) ↔ Classified start positions i := by
  rw [sent.entered_iff part found]
  cases i with
  | zero =>
    rw [previous, missing, Classified, Nat.zero_sub, Nat.sub_self]
    omega
  | succ i =>
    have within := (sent.compared part found).1
    have first : carried start positions i < 4096 := carried_lt
    have second : carried start positions (i + 1) < 4096 := carried_lt
    have adjacent := gap_eq_zero_iff first second
    rw [sent.gap_carried within] at adjacent
    rw [previous, Classified]
    omega

def numberedFrame (n : Nat) : Mbuf :=
  .ofUdp 5000 [UInt8.ofNat (n / 256), UInt8.ofNat n, 0, 0, 0, 0, 0, 0]

/-- What the branch adds to the counters is never the number of packets missing: upwards it
is one more, downwards the two have different parity, and for the same number again it is
0 for 4095. -/
theorem SenderRun.report_wrong (sent : SenderRun start positions frames)
    (part : handled <+: frames) {skip : Skip}
    (found : ((Tracking.start totals).trackAll handled).skips[i + 1]? = some (some skip)) :
    skip.lost ≠ missing positions (i + 1) := by
  obtain ⟨within, m, before, number, report⟩ := sent.compared part found
  have lost := (trackSequence_report report.symm).1
  have first : carried start positions i < 4096 := carried_lt
  have second : carried start positions (i + 1) < 4096 := carried_lt
  change skip.lost = ((sequenceNumber m : Int) - previous start positions (i + 1)).natAbs at lost
  rw [number, previous] at lost
  rw [← sent.gap_carried within]
  rcases Nat.lt_trichotomy (carried start positions i) (carried start positions (i + 1)) with
    upwards | same | downwards
  · rw [gap_of_lt upwards second]
    omega
  · rw [← same, gap_self first]
    omega
  · rw [gap_of_gt downwards first]
    omega

/-- The missing packets at the entries into the branch, the first packet's left out. -/
def detected (positions : List Nat) (skips : List (Option Skip)) : Nat :=
  ((List.range skips.length).map fun i =>
    if i ≠ 0 ∧ skips[i]?.join.isSome = true then missing positions i else 0).sum

/-- Every entry after the first packet's reports what is missing there, three times over,
and the counter of lost packets moved by the sum of these gaps. -/
structure ExactAccounting (positions : List Nat) (skips : List (Option Skip))
    (before after : Totals) : Prop where
  reports : ∀ i skip, skips[i + 1]? = some (some skip) →
    skip.lost = missing positions (i + 1) ∧ skip.extra = missing positions (i + 1) ∧
      skip.diff = Int.ofNat (missing positions (i + 1))
  growth : after.totalPacketsLost =
    before.totalPacketsLost + UInt64.ofNat (detected positions skips)

/-- Nothing at all is detected at a packet. -/
def Undetected (start : Nat) (positions : List Nat) : Nat → Prop
  | 0 => carried start positions 0 = 0 ∨ carried start positions 0 = 1
  | i + 1 => missing positions (i + 1) = 0 ∨ carried start positions i = 4095 ∨
    carried start positions (i + 1) = 0

theorem SenderRun.undetected_iff (sent : SenderRun start positions frames)
    (part : handled <+: frames)
    (found : ((Tracking.start totals).trackAll handled).skips[i]? = some entry) :
    Undetected start positions i ↔ entry = none := by
  rw [← Option.not_isSome_iff_eq_none, sent.entered_iff part found]
  cases i with
  | zero =>
    rw [previous, Undetected]
    omega
  | succ i =>
    have within := (sent.compared part found).1
    have first : carried start positions i < 4096 := carried_lt
    have second : carried start positions (i + 1) < 4096 := carried_lt
    have adjacent := gap_eq_zero_iff first second
    rw [sent.gap_carried within] at adjacent
    rw [previous, Undetected]
    omega

/-- Without later entries nothing is detected, and all that was counted is what the
first packet's entry says. -/
theorem sums_of_first (positions : List Nat) {skips : List (Option Skip)}
    (later : ∀ i skip, skips[i + 1]? ≠ some (some skip)) :
    detected positions skips = 0 ∧
      (skips.map (·.elim 0 Skip.lost)).sum = skips[0]?.join.elim 0 Skip.lost := by
  constructor
  · refine List.sum_eq_zero_iff_forall_eq_nat.mpr fun amount member => ?_
    obtain ⟨i, -, rfl⟩ := List.mem_map.mp member
    refine if_neg fun ⟨notFirst, entered⟩ => ?_
    obtain ⟨i, rfl⟩ := Nat.exists_eq_succ_of_ne_zero notFirst
    obtain ⟨skip, reported⟩ := Option.isSome_iff_exists.mp entered
    exact later i skip (Option.join_eq_some_iff.mp reported)
  · cases skips with
    | nil => rfl
    | cons first rest =>
      have none_ : ∀ entry ∈ rest, entry = none := by
        intro entry member
        obtain ⟨i, found⟩ := List.mem_iff_getElem?.mp member
        cases entry with
        | none => rfl
        | some skip => exact absurd found (later i skip)
      have zero : (rest.map (·.elim 0 Skip.lost)).sum = 0 := by
        refine List.sum_eq_zero_iff_forall_eq_nat.mpr fun amount member => ?_
        obtain ⟨entry, present, rfl⟩ := List.mem_map.mp member
        rw [none_ entry present, Option.elim_none]
      rw [List.map_cons, List.sum_cons, zero, Nat.add_zero, List.getElem?_cons_zero,
        Option.join_some]

theorem SenderRun.first_lost (sent : SenderRun start positions frames)
    (part : handled <+: frames) {skip : Skip}
    (found : ((Tracking.start totals).trackAll handled).skips[0]? = some (some skip)) :
    0 < skip.lost ∧ skip.lost < 4096 := by
  obtain ⟨-, m, before, number, report⟩ := sent.compared part found
  have lost := (trackSequence_report report.symm).1
  have entered := (sent.entered_iff part found).mp rfl
  have bound : carried start positions 0 < 4096 := carried_lt
  change skip.lost = ((sequenceNumber m : Int) - previous start positions 0).natAbs at lost
  rw [number, previous] at lost
  omega

/-- The losses of a run are accounted for exactly only if there was nothing to account for:
no entry into the branch at all. -/
theorem SenderRun.accounting_iff (sent : SenderRun start positions frames)
    (part : handled <+: frames) :
    ExactAccounting positions ((Tracking.start totals).trackAll handled).skips totals
      ((Tracking.start totals).trackAll handled).totals ↔
      ∀ i < handled.length, Undetected start positions i := by
  have lost := trackAll_lost totals handled
  have length := trackAll_length totals handled
  constructor
  · intro accounting i within
    have later : ∀ i skip,
        ((Tracking.start totals).trackAll handled).skips[i + 1]? ≠ some (some skip) := by
      intro i skip found
      exact sent.report_wrong part found (accounting.reports i skip found).1
    obtain ⟨nothing, counted⟩ := sums_of_first positions later
    rw [← length] at within
    have found := List.getElem?_eq_getElem within
    refine (sent.undetected_iff part found).mpr ?_
    cases entry : ((Tracking.start totals).trackAll handled).skips[i] with
    | none => rfl
    | some skip =>
      rw [entry] at found
      cases i with
      | succ i => exact absurd found (later i skip)
      | zero =>
        obtain ⟨positive, bound⟩ := sent.first_lost part found
        have growth := accounting.growth
        rw [lost, nothing, counted, found, UInt64.add_right_inj, ← UInt64.toNat_inj,
          UInt64.toNat_ofNat', UInt64.toNat_ofNat', Option.join_some, Option.elim_some] at growth
        omega
  · intro undetected
    have absent : ∀ (i : Nat) (skip : Skip),
        ((Tracking.start totals).trackAll handled).skips[i]? ≠ some (some skip) := by
      intro i skip found
      have within := (List.getElem?_eq_some_iff.mp found).1
      rw [length] at within
      have none_ := (sent.undetected_iff part found).mp (undetected i within)
      exact absurd none_ (Option.some_ne_none skip)
    have later : ∀ i skip,
        ((Tracking.start totals).trackAll handled).skips[i + 1]? ≠ some (some skip) :=
      fun i => absent (i + 1)
    obtain ⟨nothing, counted⟩ := sums_of_first positions later
    constructor
    · intro i skip found
      exact absurd found (later i skip)
    · rw [lost, nothing, counted]
      cases first : ((Tracking.start totals).trackAll handled).skips[0]? with
      | none => rfl
      | some entry =>
        cases entry with
        | none => rfl
        | some skip => exact absurd first (absent 0 skip)

/-- In both threads' runs over any sender's packets, the losses reported and counted are
the packets missing, if and only if the branch has no occasion to be entered at any of the
frames that the loop comes to handle. -/
theorem accounting_exact_iff (start : Nat) (positions : List Nat) (totals : Totals) :
    (∀ udpRxPort (bursts : List Burst),
      SenderRun start positions (bursts.flatMap Subtype.val) →
      let thread := RxThread.rxThread udpRxPort (.start totals) bursts
      (ExactAccounting positions thread.skips totals thread.totals ↔
        ∀ i < (RxThread.handledFrames udpRxPort (bursts.flatMap Subtype.val)).length,
          Undetected start positions i)) ∧
    (∀ begin_ (bursts : List DumpBurst),
      SenderRun start positions ((bursts.flatMap Subtype.val).map Arrival.frame) →
      let thread := DumpThread.dumpThread (.start begin_ totals) bursts
      (ExactAccounting positions thread.skips totals thread.totals ↔
        ∀ i < (DumpThread.handledFrames (DumpThread.received begin_ bursts)).length,
          Undetected start positions i)) := by
  constructor
  · intro udpRxPort bursts sent thread
    have tracked : thread.tracking = (Tracking.start totals).trackAll
        (RxThread.handledFrames udpRxPort (bursts.flatMap Subtype.val)) := by
      have flat : thread.tracking = _ := congrArg RxThread.tracking
        (RxThread.rxThread_eq udpRxPort (.start totals) bursts)
      rw [flat, RxThread.foldl_tracking rfl]
      rfl
    change ExactAccounting positions thread.tracking.skips totals thread.tracking.totals ↔ _
    rw [tracked]
    exact sent.accounting_iff (RxThread.handledFrames_initial _)
  · intro begin_ bursts sent thread
    have tracked : thread.tracking = (Tracking.start totals).trackAll
        (DumpThread.handledFrames (DumpThread.received begin_ bursts)) :=
      DumpThread.dumpThread_handledFrames (DumpThread.live_start begin_ totals) rfl bursts
    have part : DumpThread.handledFrames (DumpThread.received begin_ bursts) <+:
        (bursts.flatMap Subtype.val).map Arrival.frame :=
      (DumpThread.handledFrames_initial _).trans
        ((DumpThread.received_initial begin_ bursts).map _)
    change ExactAccounting positions thread.tracking.skips totals thread.tracking.totals ↔ _
    rw [tracked]
    exact sent.accounting_iff part

/-- All numbers between 1 and 0 are missing, and the branch has no occasion to be entered. -/
theorem accounting_exact_exempt :
    missing [0, 4095, 4096] 1 = 4094 ∧
    ExactAccounting [0, 4095, 4096] (RxThread.rxThread 5000 (.start ⟨0, 0⟩)
        [⟨[numberedFrame 1, numberedFrame 0, numberedFrame 1], by decide⟩]).skips ⟨0, 0⟩
      (RxThread.rxThread 5000 (.start ⟨0, 0⟩)
        [⟨[numberedFrame 1, numberedFrame 0, numberedFrame 1], by decide⟩]).totals := by
  refine ⟨rfl, ((accounting_exact_iff 1 [0, 4095, 4096] ⟨0, 0⟩).1 5000
    [⟨[numberedFrame 1, numberedFrame 0, numberedFrame 1], by decide⟩]
    ⟨by decide, by decide⟩).mpr ?_⟩
  intro i within
  have few : i < 3 := within
  match i with
  | 0 => exact .inr rfl
  | 1 => exact .inr (.inr rfl)
  | 2 => exact .inl rfl

/-- Between the numbers 1 and 3 one packet is missing; two are counted and reported. -/
theorem one_missing_counted_twice :
    SenderRun 1 [0, 2] [numberedFrame 1, numberedFrame 3] ∧ missing [0, 2] 1 = 1 ∧
    ¬ ExactAccounting [0, 2] (RxThread.rxThread 5000 (.start ⟨0, 0⟩)
        [⟨[numberedFrame 1, numberedFrame 3], by decide⟩]).skips ⟨0, 0⟩
      (RxThread.rxThread 5000 (.start ⟨0, 0⟩)
        [⟨[numberedFrame 1, numberedFrame 3], by decide⟩]).totals := by
  refine ⟨⟨by decide, by decide⟩, rfl, ?_⟩
  intro accounting
  have report := accounting.reports 0 ⟨2, 2, 2, 2, 4⟩ rfl
  exact absurd report.1 (by decide)

end JerryDriver
