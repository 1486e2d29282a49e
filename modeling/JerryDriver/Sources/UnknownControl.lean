import JerryDriver.Dpdk.DumpQueues
import JerryDriver.Dpdk.ForeignTraffic
import JerryDriver.Udp.Contiguity

/-! Packets whose control field the decoder does not recognise, in the three receive loops.
`RXThread` decodes it behind its other tests, `dumpThread` before any test, and
`UdpSource::getSamples` behind its length test; where the decoder is reached it throws, and
no loop catches. Where it is not reached the packet is dropped, but has been counted by
then, or has taken a turn. Each run is compared with the run without the unknown packets. -/
namespace JerryDriver
open Definitions HrzrHeaderParser Traffic

abbrev Known (m : Mbuf) : Prop := Recognised m.headers.hrzr

/-- The frame passes all tests of `RXThread` but that of its control field. -/
def Addressed (udpRxPort : UInt16) (m : Mbuf) : Prop :=
  m.headers.nextProtoId = ipprotoUdp ∧ m.headers.etherType = htons rteEtherTypeIpv4 ∧
    m.headers.dstPort = htons udpRxPort ∧ m.pktLen = payloadSize + HrzrPacketAllHeaders.size

variable {udpRxPort : UInt16} {m : Mbuf}

theorem accepts_ok_iff :
    (∃ keep, accepts udpRxPort m = .ok keep) ↔ (Addressed udpRxPort m → Known m) := by
  by_cases addressed : Addressed udpRxPort m
  · have decoded : accepts udpRxPort m =
        (getControlFromHeader m.headers.hrzr).map isValidPacketType := if_pos addressed
    simp only [decoded, addressed, forall_const, Known, Recognised]
    cases getControlFromHeader m.headers.hrzr with
    | ok type => simp [Except.map]
    | error thrown => simp [Except.map]
  · have refused : accepts udpRxPort m = .ok false := if_neg addressed
    exact ⟨fun _ passed => absurd passed addressed, fun _ => ⟨false, refused⟩⟩

theorem known_of_accepted (accepted : Accepted udpRxPort m) : Known m := by
  rcases ((accepted_iff udpRxPort m).mp accepted).2.2.2.2 with data | last
  · exact ⟨_, data⟩
  · exact ⟨_, last⟩

/-- The unknown frames as inserted between the others. -/
def unknownInserted (frames : List Mbuf) : List Traffic :=
  frames.map fun m => if Known m then .original m else .inserted m

theorem frames_unknownInserted (frames : List Mbuf) :
    (unknownInserted frames).map frame = frames := by
  induction frames with
  | nil => rfl
  | cons m rest ih =>
    rw [unknownInserted, List.map_cons, List.map_cons, ← unknownInserted, ih]
    split <;> rfl

theorem originals_unknownInserted (frames : List Mbuf) :
    originals (unknownInserted frames) = frames.filter (Known ·) := by
  induction frames with
  | nil => rfl
  | cons m rest ih =>
    rw [unknownInserted, List.map_cons, ← unknownInserted]
    by_cases known : Known m
    · rw [if_pos known, originals, ih, List.filter_cons_of_pos (by simpa using known)]
    · rw [if_neg known, originals, ih, List.filter_cons_of_neg (by simpa using known)]

namespace RxThread

/-- The thread survives the frames; an unknown one is counted as received and freed, and all
others are handled as in the run `without` the unknown ones, down to the losses reported. -/
structure DiscardsUnknown (frames : List Mbuf) (before after without : RxThread) : Prop where
  caught : after.escaped = none
  discarded : after.freed.filter (¬ Known ·) =
    before.freed.filter (¬ Known ·) ++ frames.filter (¬ Known ·)
  freed : after.freed.filter (Known ·) = without.freed.filter (Known ·)
  ring : after.ring = without.ring
  statistics : SameStatistics (unknownInserted frames) before without after
  received : after.totals.totalPackets =
    without.totals.totalPackets + UInt64.ofNat (frames.filter (¬ Known ·)).length

def knownBurst (burst : Burst) : Burst :=
  ⟨burst.val.filter (Known ·), (List.length_filter_le _ _).trans burst.property⟩

variable {thread : RxThread} {frames : List Mbuf}

/-- A thread that has survived its frames has met none that throws. -/
theorem decided_of_running (running : thread.escaped = none)
    (survived : (frames.foldl (processPacket udpRxPort) thread).escaped = none) :
    ∀ m ∈ frames, ∃ keep, accepts udpRxPort m = .ok keep := by
  induction frames generalizing thread with
  | nil => exact fun _ member => absurd member List.not_mem_nil
  | cons m rest ih =>
    have handled : Handled udpRxPort m thread (processPacket udpRxPort thread m) :=
      processPacket_handled running
    rw [List.foldl_cons] at survived
    intro other member
    rcases List.mem_cons.mp member with rfl | later
    · cases handled with
      | accepted accepted => exact ⟨true, accepted⟩
      | refused refused => exact ⟨false, refused⟩
      | thrown thrown unknown ring freed escaped =>
        rw [foldl_escaped (by rw [escaped]; rfl), escaped] at survived
        contradiction
    · cases handled with
      | accepted _ _ _ escaped => exact ih escaped survived other later
      | refused _ _ _ escaped => exact ih escaped survived other later
      | thrown thrown unknown ring freed escaped =>
        rw [foldl_escaped (by rw [escaped]; rfl), escaped] at survived
        contradiction

theorem frames_knownBursts (bursts : List Burst) :
    (bursts.map knownBurst).flatMap Subtype.val =
      (bursts.flatMap Subtype.val).filter (Known ·) := by
  induction bursts with
  | nil => rfl
  | cons burst rest ih =>
    rw [List.map_cons, List.flatMap_cons, List.flatMap_cons, List.filter_append, ih]
    rfl

/-- No unknown frame is accepted. -/
theorem filter_known_accepted (udpRxPort : UInt16) (frames : List Mbuf) :
    (frames.filter (Known ·)).filter (Accepted udpRxPort ·) =
      frames.filter (Accepted udpRxPort ·) := by
  rw [List.filter_filter]
  refine List.filter_congr fun m _ => ?_
  by_cases accepted : Accepted udpRxPort m
  · simp [accepted, known_of_accepted accepted]
  · simp [accepted]

/-- While nothing throws, a frame goes where it goes without the unknown ones. -/
theorem fates_unknown (running : thread.escaped = none)
    (decided : ∀ m ∈ frames, ∃ keep, accepts udpRxPort m = .ok keep) :
    let after := frames.foldl (processPacket udpRxPort) thread
    let without := (frames.filter (Known ·)).foldl (processPacket udpRxPort) thread
    after.freed.filter (¬ Known ·) =
        thread.freed.filter (¬ Known ·) ++ frames.filter (¬ Known ·) ∧
      after.freed.filter (Known ·) = without.freed.filter (Known ·) ∧
      after.ring = without.ring := by
  obtain ⟨-, ring, freed⟩ := foldl_fates running decided
  obtain ⟨-, ring', freed'⟩ := @foldl_fates udpRxPort thread (frames.filter (Known ·)) running
    fun m member => decided m (List.mem_filter.mp member).1
  refine ⟨?_, ?_, ?_⟩
  · rw [freed, List.filter_append, List.filter_filter]
    congr 1
    refine List.filter_congr fun m _ => ?_
    by_cases known : Known m
    · simp [known]
    · have refused : ¬ Accepted udpRxPort m := fun accepted => known (known_of_accepted accepted)
      simp [known, refused]
  · rw [freed, freed', List.filter_append, List.filter_append, List.filter_filter,
      List.filter_filter, List.filter_filter]
    congr 1
    refine List.filter_congr fun m _ => ?_
    rw [Bool.and_comm (decide (Known m)), Bool.and_assoc, Bool.and_self]
  · rw [ring, ring', filter_known_accepted]

/-- While nothing throws, the losses are as without the unknown frames exactly when these
spare the others. -/
theorem statistics_unknown_iff (running : thread.escaped = none) {bursts : List Burst}
    (decided : ∀ m ∈ bursts.flatMap Subtype.val, ∃ keep, accepts udpRxPort m = .ok keep) :
    SameStatistics (unknownInserted (bursts.flatMap Subtype.val)) thread
        (rxThread udpRxPort thread (bursts.map knownBurst)) (rxThread udpRxPort thread bursts) ↔
      Spared thread.seq thread.seq (unknownInserted (bursts.flatMap Subtype.val)) ∧
        insertedLoss thread.seq (unknownInserted (bursts.flatMap Subtype.val)) % 2 ^ 64 = 0 := by
  have whole : handled udpRxPort (unknownInserted (bursts.flatMap Subtype.val)) =
      unknownInserted (bursts.flatMap Subtype.val) := by
    refine handled_eq fun entry member => decided entry.frame ?_
    rw [← frames_unknownInserted (bursts.flatMap Subtype.val)]
    exact List.mem_map_of_mem member
  have own : handledFrames udpRxPort ((bursts.map knownBurst).flatMap Subtype.val) =
      originals (handled udpRxPort (unknownInserted (bursts.flatMap Subtype.val))) := by
    rw [whole, originals_unknownInserted, frames_knownBursts]
    exact handledFrames_eq fun m member => decided m (List.mem_filter.mp member).1
  have iff_ := sameStatistics_iff running own (frames_unknownInserted _).symm
  rwa [whole] at iff_

/-- Unknown frames that spare the others add themselves to the packets received. -/
theorem received_unknown (running : thread.escaped = none) {bursts : List Burst}
    (decided : ∀ m ∈ bursts.flatMap Subtype.val, ∃ keep, accepts udpRxPort m = .ok keep)
    (spared : Spared thread.seq thread.seq (unknownInserted (bursts.flatMap Subtype.val)))
    (nothing :
      insertedLoss thread.seq (unknownInserted (bursts.flatMap Subtype.val)) % 2 ^ 64 = 0) :
    (rxThread udpRxPort thread bursts).totals.totalPackets =
      (rxThread udpRxPort thread (bursts.map knownBurst)).totals.totalPackets +
        UInt64.ofNat ((bursts.flatMap Subtype.val).filter (¬ Known ·)).length := by
  obtain ⟨-, -, -, totals⟩ := rxThread_from udpRxPort running bursts
  obtain ⟨-, -, -, totals'⟩ := rxThread_from udpRxPort running (bursts.map knownBurst)
  have losses := loss_eq_of_spared _ _ _ spared
  rw [frames_knownBursts, handledFrames_eq fun m member => decided m (List.mem_filter.mp member).1]
    at totals'
  rw [handledFrames_eq decided] at totals
  rw [frames_unknownInserted, originals_unknownInserted] at losses
  rw [totals, totals', losses]
  generalize bursts.flatMap Subtype.val = frames at nothing ⊢
  have parts := List.length_eq_length_filter_add (l := frames) (Known ·)
  have zero : UInt64.ofNat (insertedLoss thread.seq (unknownInserted frames)) = 0 := by
    apply UInt64.toNat_inj.mp
    simpa using nothing
  simp only [Totals.plus, parts, UInt64.ofNat_add, zero]
  simp [UInt64.add_assoc]

theorem discardsUnknown_iff (running : thread.escaped = none) (bursts : List Burst) :
    DiscardsUnknown (bursts.flatMap Subtype.val) thread (rxThread udpRxPort thread bursts)
        (rxThread udpRxPort thread (bursts.map knownBurst)) ↔
      (∀ m ∈ bursts.flatMap Subtype.val, Addressed udpRxPort m → Known m) ∧
        Spared thread.seq thread.seq (unknownInserted (bursts.flatMap Subtype.val)) ∧
        insertedLoss thread.seq (unknownInserted (bursts.flatMap Subtype.val)) % 2 ^ 64 = 0 := by
  constructor
  · intro discards
    have caught := discards.caught
    rw [rxThread_eq] at caught
    have decided := decided_of_running running caught
    exact ⟨fun m member => accepts_ok_iff.mp (decided m member),
      (statistics_unknown_iff running decided).mp discards.statistics⟩
  · rintro ⟨known, spared, nothing⟩
    have decided : ∀ m ∈ bursts.flatMap Subtype.val, ∃ keep, accepts udpRxPort m = .ok keep :=
      fun m member => accepts_ok_iff.mpr (known m member)
    obtain ⟨discarded, freed, ring⟩ := fates_unknown running decided
    rw [← frames_knownBursts, ← rxThread_eq, ← rxThread_eq] at freed ring
    rw [← rxThread_eq] at discarded
    refine ⟨?_, discarded, freed, ring, (statistics_unknown_iff running decided).mpr
      ⟨spared, nothing⟩, received_unknown running decided spared nothing⟩
    rw [rxThread_eq]
    exact foldl_running running decided

end RxThread

namespace DumpThread

/-- The thread survives what it receives; an unknown frame is counted and freed, and all
others are handled as in the run `without` the unknown ones. -/
structure DiscardsUnknown (frames : List Mbuf) (after without : DumpThread) : Prop where
  caught : ∀ thrown, after.stopped ≠ some (.escaped thrown)
  discarded : after.freed.filter (¬ Known ·) = frames.filter (¬ Known ·)
  freed : after.freed.filter (Known ·) = without.freed.filter (Known ·)
  hrzrHeader : after.hrzrHeader = without.hrzrHeader
  hrzrPayload : after.hrzrPayload = without.hrzrPayload
  hrzrMeta : after.hrzrMeta = without.hrzrMeta
  file : after.file = without.file
  quit : after.quit = without.quit
  amounts : (atOriginals (unknownInserted frames) after.skips).map (·.map Skip.amounts) =
    without.skips.map (·.map Skip.amounts)
  lost : after.totals.totalPacketsLost = without.totals.totalPacketsLost
  received : after.totals.totalPackets =
    without.totals.totalPackets + UInt64.ofNat (frames.filter (¬ Known ·)).length

def knownBurst (burst : DumpBurst) : DumpBurst :=
  ⟨burst.val.filter (Known ·.frame), (List.length_filter_le _ _).trans burst.property⟩

variable {thread : DumpThread} {arrival : Arrival} {arrivals : List Arrival}

theorem atOriginals_of_known {α : Type} {frames : List Mbuf} (known : ∀ m ∈ frames, Known m)
    {entries : List α} (length : entries.length = frames.length) :
    atOriginals (unknownInserted frames) entries = entries := by
  induction frames generalizing entries with
  | nil =>
    rw [List.length_eq_zero_iff.mp length]
    rfl
  | cons m rest ih =>
    cases entries with
    | nil => contradiction
    | cons entry entries =>
      have later := @ih (fun other member => known other (List.mem_cons_of_mem _ member)) entries
        (Nat.succ.inj length)
      rw [unknownInserted, List.map_cons, if_pos (known m List.mem_cons_self), atOriginals,
        ← unknownInserted, later]

theorem dumpThread_escapes (live : Live thread) (going : thread.quit = false)
    {bursts : List DumpBurst} (member : arrival ∈ received thread.begin_ bursts)
    (unknown : ¬ Known arrival.frame) :
    ∃ thrown, (dumpThread thread bursts).stopped = some (.escaped thrown) := by
  induction bursts generalizing thread with
  | nil => contradiction
  | cons burst rest ih =>
    rw [dumpThread_burst live going]
    by_cases known : ∀ arrival ∈ burst.val, Known arrival.frame
    · obtain ⟨after, began, ended⟩ := foldl_live live known
      rw [received, receivedBursts] at member
      split at member
      · rw [List.flatMap_singleton] at member
        exact absurd (known arrival member) unknown
      · rename_i early
        have goes : (processBurst thread burst).quit = false := by
          rw [← Bool.not_eq_true, processBurst, ended, going]
          simpa using early
        rcases List.mem_append.mp (List.flatMap_cons ▸ member) with here | later
        · exact absurd (known arrival here) unknown
        · exact @ih (processBurst thread burst) after goes (by rwa [processBurst, began])
    · simp only [not_forall] at known
      obtain ⟨first, inside, strange⟩ := known
      obtain ⟨thrown, stopped⟩ := foldl_escapes live inside strange
      have ended : (processBurst thread burst).stopped = some (.escaped thrown) := stopped
      refine ⟨thrown, ?_⟩
      rw [dumpThread_ended (.inr (by rw [ended]; rfl)), ended]

theorem foldl_freed (live : Live thread) (known : ∀ arrival ∈ arrivals, Known arrival.frame) :
    (arrivals.foldl processPacket thread).freed = thread.freed ++ arrivals.map Arrival.frame := by
  induction arrivals generalizing thread with
  | nil => exact (List.append_nil _).symm
  | cons arrival rest ih =>
    obtain ⟨alive, _, _, freed⟩ := processPacket_recorded live (known arrival List.mem_cons_self)
    rw [List.foldl_cons, ih alive fun other member => known other (List.mem_cons_of_mem _ member),
      freed, List.append_assoc]
    rfl

theorem received_knownBursts {begin_ : Nat} {bursts : List DumpBurst}
    (known : ∀ arrival ∈ received begin_ bursts, Known arrival.frame) :
    received begin_ (bursts.map knownBurst) = received begin_ bursts := by
  induction bursts with
  | nil => rfl
  | cons burst rest ih =>
    have same (all : ∀ arrival ∈ burst.val, Known arrival.frame) : knownBurst burst = burst := by
      apply Subtype.ext
      exact List.filter_eq_self.mpr fun arrival member => by simpa using all arrival member
    rw [received, receivedBursts] at known
    rw [List.map_cons, received, received, receivedBursts, receivedBursts]
    by_cases due : ∃ arrival ∈ burst.val, Due begin_ arrival.clock
    · rw [if_pos due, List.flatMap_singleton] at known
      rw [same known, if_pos due, if_pos due]
    · rw [if_neg due, List.flatMap_cons] at known
      have rest_ := ih fun arrival member => known arrival (List.mem_append_right _ member)
      rw [same fun arrival member => known arrival (List.mem_append_left _ member),
        if_neg due, if_neg due, List.flatMap_cons, List.flatMap_cons]
      exact congrArg (burst.val ++ ·) rest_

theorem discardsUnknown_iff (begin_ : Nat) (totals : Totals) (bursts : List DumpBurst) :
    DiscardsUnknown ((received begin_ bursts).map Arrival.frame)
        (dumpThread (start begin_ totals) bursts)
        (dumpThread (start begin_ totals) (bursts.map knownBurst)) ↔
      ∀ arrival ∈ received begin_ bursts, Known arrival.frame := by
  have live := live_start begin_ totals
  constructor
  · intro discards arrival member
    by_contra unknown
    obtain ⟨thrown, stopped⟩ := dumpThread_escapes live rfl member unknown
    exact discards.caught thrown stopped
  · intro known
    have whole : dumpThread (start begin_ totals) bursts =
        (received begin_ bursts).foldl processPacket (start begin_ totals) :=
      dumpThread_received live rfl known
    have without : dumpThread (start begin_ totals) (bursts.map knownBurst) =
        (received begin_ bursts).foldl processPacket (start begin_ totals) := by
      have same := received_knownBursts known
      rw [dumpThread_received live rfl (same.symm ▸ known)]
      exact congrArg (List.foldl processPacket (start begin_ totals)) same
    have frames : ∀ m ∈ (received begin_ bursts).map Arrival.frame, Known m := by
      intro m member
      obtain ⟨arrival, inside, rfl⟩ := List.mem_map.mp member
      exact known arrival inside
    have none_ : ((received begin_ bursts).map Arrival.frame).filter (¬ Known ·) = [] :=
      List.filter_eq_nil_iff.mpr fun m member => by simpa using frames m member
    have tracked : (dumpThread (start begin_ totals) bursts).tracking =
        (Tracking.start totals).trackAll ((received begin_ bursts).map Arrival.frame) := by
      rw [dumpThread_handledFrames live rfl]
      exact congrArg _ (handledFrames_eq known)
    have length := congrArg (·.skips.length) tracked
    simp only [Tracking.trackAll_length] at length
    rw [without, ← whole]
    refine ⟨fun thrown stopped => ?_, ?_, rfl, rfl, rfl, rfl, rfl, rfl, ?_, rfl, ?_⟩
    · rw [whole, (foldl_live live known).1.running] at stopped
      contradiction
    · rw [whole, foldl_freed live known]
      rfl
    · exact congrArg _ (atOriginals_of_known frames length)
    · rw [none_]
      exact (UInt64.add_zero _).symm

end DumpThread

namespace UdpSource

/-- The call does not throw, and it has decoded what it decodes `without` the unknown
datagrams, each to the same block. -/
structure DiscardsUnknown (after without : Reception) : Prop where
  caught : ∀ thrown, after.ending ≠ some (.thrown thrown)
  samples : after.samples = without.samples
  total : after.totalSamplesReceived = without.totalSamplesReceived

def Known : Received → Prop
  | .failed => True
  | .datagram payload => Recognised (headerOf payload)

instance : DecidablePred Known
  | .failed => .isTrue trivial
  | .datagram payload => inferInstanceAs (Decidable (Recognised (headerOf payload)))

/-- Of the datagrams that the turns from the first unknown one on would go to without the
unknown ones, none is a data packet. -/
def DataBeforeUnknown : List Received → (packets : Nat) → Prop
  | .datagram payload :: rest, packets + 1 =>
    if Recognised (headerOf payload) then DataBeforeUnknown rest packets
    else ∀ other ∈ heard (rest.filter (Known ·)) (packets + 1), ¬ Decodes other
  | _, _ => True

variable {payload : List UInt8} {rest : List Received} {packets : Nat}

theorem recognised_of_decodes (decodes : Decodes payload) : Recognised (headerOf payload) :=
  ⟨.data, decodes.2⟩

theorem filter_known (known : Recognised (headerOf payload)) :
    (Received.datagram payload :: rest).filter (Known ·) =
      .datagram payload :: rest.filter (Known ·) :=
  List.filter_cons_of_pos (decide_eq_true known)

theorem filter_failed : (Received.failed :: rest).filter (Known ·) =
    .failed :: rest.filter (Known ·) :=
  List.filter_cons_of_pos (decide_eq_true trivial)

theorem filter_unknown (unknown : ¬ Recognised (headerOf payload)) :
    (Received.datagram payload :: rest).filter (Known ·) = rest.filter (Known ·) :=
  List.filter_cons_of_neg fun known => unknown (of_decide_eq_true known)

theorem heard_known (received : List Received) (packets : Nat) :
    ∀ payload ∈ heard (received.filter (Known ·)) packets, Recognised (headerOf payload) := by
  induction received generalizing packets with
  | nil => simp [heard]
  | cons first rest ih =>
    cases first with
    | failed => simp [filter_failed, heard]
    | datagram payload =>
      by_cases known : Recognised (headerOf payload)
      · rw [filter_known known]
        cases packets with
        | zero => simp [heard_zero]
        | succ packets => exact List.forall_mem_cons.mpr ⟨known, ih packets⟩
      · rw [filter_unknown known]
        exact ih packets

/-- Without the unknown datagrams a call comes to all others, and perhaps to more. -/
theorem heard_subset {received : List Received} {packets more : Nat} (within : packets ≤ more)
    (heard_ : payload ∈ heard received packets) (known : Recognised (headerOf payload)) :
    payload ∈ heard (received.filter (Known ·)) more := by
  induction received generalizing packets more with
  | nil => simp [heard] at heard_
  | cons first rest ih =>
    cases packets with
    | zero => simp [heard_zero] at heard_
    | succ packets =>
      cases first with
      | failed => simp [heard] at heard_
      | datagram other =>
        obtain ⟨more, rfl⟩ := Nat.exists_eq_add_one_of_ne_zero (by omega : more ≠ 0)
        rw [heard] at heard_
        by_cases recognised : Recognised (headerOf other)
        · rw [filter_known recognised, heard]
          rcases List.mem_cons.mp heard_ with rfl | later
          · exact List.mem_cons_self
          · exact List.mem_cons_of_mem _ (ih (by omega) later)
        · rw [filter_unknown recognised]
          rcases List.mem_cons.mp heard_ with rfl | later
          · exact absurd known recognised
          · exact ih (by omega) later

theorem placed_known {received : List Received} (before : DataBeforeUnknown received packets)
    (packetIdx : Nat) : placed packetIdx (heard received packets) =
      placed packetIdx (heard (received.filter (Known ·)) packets) := by
  induction packets generalizing received packetIdx with
  | zero => rw [heard_zero, heard_zero]
  | succ packets ih =>
    cases received with
    | nil => rfl
    | cons first rest =>
      cases first with
      | failed => simp [filter_failed, heard]
      | datagram payload =>
        rw [DataBeforeUnknown] at before
        by_cases known : Recognised (headerOf payload)
        · rw [if_pos known] at before
          rw [filter_known known, heard, heard, placed, placed, ih before]
        · rw [if_neg known] at before
          have none_ : ∀ other ∈ heard rest packets, ¬ Decodes other := fun other member decodes =>
            before other (heard_subset (Nat.le_succ _) member (recognised_of_decodes decodes))
              decodes
          rw [filter_unknown known, placed_eq_nil.mpr before, heard,
            placed_skips (fun decodes => known (recognised_of_decodes decodes)),
            placed_eq_nil.mpr none_]

/-- Datagrams that come `late` are placed later by as much, or by more. -/
theorem placed_later (received : List Received) (packets more packetIdx late : Nat)
    {first block : Nat × List UInt8}
    (begins : first ∈ (placed packetIdx (heard (received.filter (Known ·)) more)).head?)
    (member : block ∈ placed (packetIdx + late) (heard received packets)) :
    first.1 + late ≤ block.1 := by
  induction received generalizing packets more packetIdx late with
  | nil => simp [heard, placed] at member
  | cons next rest ih =>
    cases packets with
    | zero => simp [heard_zero, placed] at member
    | succ packets =>
      cases next with
      | failed => simp [heard, placed] at member
      | datagram payload =>
        rw [heard] at member
        by_cases known : Recognised (headerOf payload)
        · rw [filter_known known] at begins
          cases more with
          | zero => simp [heard_zero, placed] at begins
          | succ more =>
            rw [heard] at begins
            by_cases decodes : Decodes payload
            · rw [placed_decodes decodes, List.head?_cons, Option.mem_some_iff] at begins
              subst begins
              exact placed_ge member
            · rw [placed_skips decodes] at begins member
              exact ih packets more (packetIdx + 1) late begins (by
                rwa [Nat.add_right_comm] at member)
        · rw [filter_unknown known] at begins
          rw [placed_skips fun decodes => known (recognised_of_decodes decodes)] at member
          have later := ih packets more packetIdx (late + 1) begins member
          omega

theorem dataBeforeUnknown_of_places {received : List Received} {packetIdx : Nat}
    (same : ∀ place, place ∈ (placed packetIdx (heard received packets)).map Prod.fst ↔
      place ∈ (placed packetIdx (heard (received.filter (Known ·)) packets)).map Prod.fst) :
    DataBeforeUnknown received packets := by
  induction packets generalizing received packetIdx with
  | zero => cases received <;> simp [DataBeforeUnknown]
  | succ packets ih =>
    cases received with
    | nil => trivial
    | cons first rest =>
      cases first with
      | failed => trivial
      | datagram payload =>
        rw [DataBeforeUnknown]
        by_cases known : Recognised (headerOf payload)
        · rw [if_pos known]
          rw [filter_known known, heard, heard] at same
          refine @ih rest (packetIdx + 1) fun place => ?_
          by_cases decodes : Decodes payload
          · have other {payloads : List (List UInt8)}
                (member : place ∈ (placed (packetIdx + 1) payloads).map Prod.fst) :
                place ≠ packetIdx := by
              obtain ⟨block, inside, rfl⟩ := List.mem_map.mp member
              have later := placed_ge inside
              omega
            have tail := same place
            rw [placed_decodes decodes, placed_decodes decodes, List.map_cons, List.map_cons,
              List.mem_cons, List.mem_cons] at tail
            exact ⟨fun member => (tail.mp (.inr member)).resolve_left (other member),
              fun member => (tail.mpr (.inr member)).resolve_left (other member)⟩
          · rw [placed_skips decodes, placed_skips decodes] at same
            exact same place
        · rw [if_neg known]
          suffices none_ : placed packetIdx (heard (rest.filter (Known ·)) (packets + 1)) = [] from
            placed_eq_nil.mp none_
          rw [filter_unknown known, heard,
            placed_skips fun decodes => known (recognised_of_decodes decodes)] at same
          cases blocks : placed packetIdx (heard (rest.filter (Known ·)) (packets + 1)) with
          | nil => rfl
          | cons block others =>
            have there := (same block.1).mpr (by
              rw [blocks]
              exact List.mem_cons_self)
            obtain ⟨late, member, place⟩ := List.mem_map.mp there
            have first : block ∈ (placed packetIdx
                (heard (rest.filter (Known ·)) (packets + 1))).head? := by
              rw [blocks]
              rfl
            have later := placed_later rest packets (packets + 1) packetIdx 1 first member
            omega

/-- What a call leaves that comes to nothing that makes it throw. -/
theorem getSamples_passing (source : UdpSource) (numberOfSamples : Nat) {received : List Received}
    (samples : SampleBuffer)
    (passes : ∀ payload ∈ heard received (numberOfSamples / samplesPerPacket + 1),
      packetSize ≤ payload.length → Recognised (headerOf payload)) :
    let blocks := placed 0 (heard received (numberOfSamples / samplesPerPacket + 1))
    (getSamples source numberOfSamples received samples).samples =
        blocks.foldl (place source.parser) samples ∧
      (getSamples source numberOfSamples received samples).totalSamplesReceived =
        blocks.length * samplesPerPacket ∧
      ∀ thrown, (getSamples source numberOfSamples received samples).ending ≠
        some (.thrown thrown) := by
  obtain ⟨blocks, total, caught⟩ := @receiveLoop_samples source.parser received _ 0
    ⟨source.buf, samples, 0, none⟩ rfl passes
  refine ⟨blocks, total.trans ?_, caught⟩
  rw [Nat.zero_add, ← placed_payloads 0, List.length_map]

theorem discardsUnknown_iff (source : UdpSource) (numberOfSamples : Nat)
    (received : List Received) (cells : Nat → Sample) :
    DiscardsUnknown (getSamples source numberOfSamples received ⟨cells, []⟩)
        (getSamples source numberOfSamples (received.filter (Known ·)) ⟨cells, []⟩) ↔
      (∀ payload ∈ heard received (numberOfSamples / samplesPerPacket + 1),
        packetSize ≤ payload.length → Recognised (headerOf payload)) ∧
      DataBeforeUnknown received (numberOfSamples / samplesPerPacket + 1) := by
  obtain ⟨others, count, -⟩ := getSamples_passing source numberOfSamples ⟨cells, []⟩
    fun payload member _ => heard_known received (numberOfSamples / samplesPerPacket + 1)
      payload member
  constructor
  · intro discards
    have passes : ∀ payload ∈ heard received (numberOfSamples / samplesPerPacket + 1),
        packetSize ≤ payload.length → Recognised (headerOf payload) := by
      intro payload member
      by_contra refused
      obtain ⟨thrown, ending⟩ := @receiveLoop_thrown source.parser received _ 0
        ⟨source.buf, ⟨cells, []⟩, 0, none⟩ rfl payload member refused
      exact discards.caught thrown ending
    obtain ⟨blocks, -, -⟩ := getSamples_passing source numberOfSamples ⟨cells, []⟩ passes
    refine ⟨passes, @dataBeforeUnknown_of_places _ received 0 fun place => ?_⟩
    -- The first index of a block tells whether the block was written.
    have written := congrArg (place * samplesPerPacket ∈ ·.written) discards.samples
    simp only [blocks, others, foldl_place_written, List.not_mem_nil, false_or,
      Nat.mul_div_cancel _ samplesPerPacket_pos, eq_iff_iff] at written
    exact written
  · rintro ⟨passes, before⟩
    obtain ⟨blocks, total, caught⟩ := getSamples_passing source numberOfSamples ⟨cells, []⟩ passes
    refine ⟨caught, ?_, ?_⟩
    · rw [blocks, others, placed_known before]
    · rw [total, count, placed_known before]

end UdpSource

/-- Each loop survives its input and handles all other packets as without the unknown ones,
exactly if the decoder is reached by known packets only, the unknown ones that `RXThread`
drops change no loss, and those that a UDP call drops have no data packet behind them. -/
theorem unknown_control_discarded_iff (udpRxPort : UInt16) (seq : Int) (totals : Totals)
    (ring : RteRing) (freed : List Mbuf) (skips : List (Option Skip)) (bursts : List Burst)
    (begin_ : Nat) (dumpBursts : List DumpBurst) (source : UdpSource) (numberOfSamples : Nat)
    (received : List UdpSource.Received) (cells : Nat → Sample) :
    (RxThread.DiscardsUnknown (bursts.flatMap Subtype.val) ⟨seq, totals, ring, freed, skips, none⟩
        (RxThread.rxThread udpRxPort ⟨seq, totals, ring, freed, skips, none⟩ bursts)
        (RxThread.rxThread udpRxPort ⟨seq, totals, ring, freed, skips, none⟩
          (bursts.map RxThread.knownBurst)) ↔
      (∀ m ∈ bursts.flatMap Subtype.val, Addressed udpRxPort m → Known m) ∧
        Spared seq seq (unknownInserted (bursts.flatMap Subtype.val)) ∧
        insertedLoss seq (unknownInserted (bursts.flatMap Subtype.val)) % 2 ^ 64 = 0) ∧
    (DumpThread.DiscardsUnknown ((DumpThread.received begin_ dumpBursts).map Arrival.frame)
        (DumpThread.dumpThread (.start begin_ totals) dumpBursts)
        (DumpThread.dumpThread (.start begin_ totals) (dumpBursts.map DumpThread.knownBurst)) ↔
      ∀ arrival ∈ DumpThread.received begin_ dumpBursts, Known arrival.frame) ∧
    (UdpSource.DiscardsUnknown (source.getSamples numberOfSamples received ⟨cells, []⟩)
        (source.getSamples numberOfSamples (received.filter (UdpSource.Known ·)) ⟨cells, []⟩) ↔
      (∀ payload ∈ UdpSource.heard received (numberOfSamples / samplesPerPacket + 1),
        packetSize ≤ payload.length → Recognised (UdpSource.headerOf payload)) ∧
      UdpSource.DataBeforeUnknown received (numberOfSamples / samplesPerPacket + 1)) :=
  ⟨RxThread.discardsUnknown_iff rfl bursts,
    DumpThread.discardsUnknown_iff begin_ totals dumpBursts,
    UdpSource.discardsUnknown_iff source numberOfSamples received cells⟩

/-- A full frame to port 5000 whose control field is 1001. -/
def unknownFrame : Mbuf where
  pktLen := 1514
  data i := if i = 12 then 0x08 else if i = 23 then 17 else if i = 36 then 0x13 else
    if i = 37 then 0x88 else if i = 42 then 0x90 else 0

theorem unknown_frame_escapes : ¬ RxThread.DiscardsUnknown [unknownFrame] (.start ⟨0, 0⟩)
    (RxThread.rxThread 5000 (.start ⟨0, 0⟩) [⟨[unknownFrame], by decide⟩])
    (RxThread.rxThread 5000 (.start ⟨0, 0⟩)
      ([⟨[unknownFrame], by decide⟩].map RxThread.knownBurst)) := by
  intro discards
  have thrown : accepts 5000 unknownFrame =
      .error (.invalidHrzrHeader "Could not match control.") := by decide
  obtain ⟨keep, known⟩ := RxThread.decided_of_running rfl discards.caught unknownFrame
    List.mem_cons_self
  rw [thrown] at known
  contradiction

end JerryDriver
