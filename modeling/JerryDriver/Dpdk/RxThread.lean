import JerryDriver.Dpdk.SequenceTracking
import JerryDriver.Library.BoundedQueue
import JerryDriver.Library.Transition

/-! The receive loop of `RXThread`. One iteration handles a burst of at most 32
frames in order: every frame is counted, an accepted one goes to the stream's ring,
any other is freed. An exception from the header decoder leaves the thread
function, so nothing of the burst after it is handled. -/
namespace JerryDriver
open HrzrHeaderParser

/-- A ring of `RING_SIZE` slots holds one pointer fewer. -/
abbrev RteRing := BoundedQueue Mbuf (Definitions.ringSize - 1)

/-- `mbufs[32]` as `rte_eth_rx_burst` fills it. -/
abbrev Burst := { frames : List Mbuf // frames.length ≤ 32 }

/-- What the loop reads and writes: its local sequence number, the shared counters,
the stream's ring, the buffers freed and, packet by packet, the reports printed. -/
structure RxThread where
  seq : Int
  totals : Totals
  ring : RteRing
  freed : List Mbuf
  skips : List (Option Skip)
  escaped : Option Thrown

namespace RxThread

def start (totals : Totals) : RxThread := ⟨0, totals, .empty, [], [], none⟩

/-- The loop body for one frame. The return code of `rte_ring_enqueue` is dropped. -/
def processPacket (udpRxPort : UInt16) (thread : RxThread) (m : Mbuf) : RxThread :=
  if thread.escaped.isSome then thread else
  -- Counting comes before the test, whatever the frame is.
  let (seq, totals, skip) := trackSequence thread.seq thread.totals m.headers.hrzr
  let thread := { thread with seq, totals, skips := thread.skips ++ [skip] }
  match accepts udpRxPort m with
  | .ok true => { thread with ring := (thread.ring.enqueue m).2 }
  | .ok false => { thread with freed := thread.freed ++ [m] }
  | .error thrown => { thread with escaped := some thrown }

def processBurst (udpRxPort : UInt16) (thread : RxThread) (burst : Burst) : RxThread :=
  burst.val.foldl (processPacket udpRxPort) thread

def rxThread (udpRxPort : UInt16) (thread : RxThread) (bursts : List Burst) : RxThread :=
  bursts.foldl (processBurst udpRxPort) thread

/-- How the frames are cut into bursts does not matter. -/
theorem rxThread_eq (udpRxPort : UInt16) (thread : RxThread) (bursts : List Burst) :
    rxThread udpRxPort thread bursts =
      (bursts.flatMap Subtype.val).foldl (processPacket udpRxPort) thread := by
  induction bursts generalizing thread with
  | nil => rfl
  | cons burst rest ih =>
    rw [rxThread, List.foldl_cons, List.flatMap_cons, List.foldl_append]
    exact ih _

variable {udpRxPort : UInt16} {thread : RxThread} {m : Mbuf}

theorem processPacket_escaped (escaped : thread.escaped.isSome = true) :
    processPacket udpRxPort thread m = thread := by
  rw [processPacket, if_pos escaped]

theorem foldl_escaped (escaped : thread.escaped.isSome = true) (frames : List Mbuf) :
    frames.foldl (processPacket udpRxPort) thread = thread :=
  Transition.foldl_stopped (fun _ => processPacket_escaped) escaped frames

def tracking (thread : RxThread) : Tracking := ⟨thread.seq, thread.totals, thread.skips⟩

/-- Counting happens for every frame that the loop still handles, accepted or not. -/
theorem processPacket_tracking (running : thread.escaped = none) :
    (processPacket udpRxPort thread m).tracking = thread.tracking.track m := by
  simp only [processPacket, running, Option.isSome_none, Bool.false_eq_true, if_false]
  split <;> rfl

/-- Where a frame goes: an accepted one to the ring if there is room, any other is freed,
and one that throws stays with the thread. -/
inductive Handled (udpRxPort : UInt16) (m : Mbuf) (before after : RxThread) : Prop where
  | accepted (accepted : Accepted udpRxPort m) (ring : after.ring = (before.ring.enqueue m).2)
      (freed : after.freed = before.freed) (escaped : after.escaped = none)
  | refused (refused : accepts udpRxPort m = .ok false) (ring : after.ring = before.ring)
      (freed : after.freed = before.freed ++ [m]) (escaped : after.escaped = none)
  | thrown (thrown : Thrown) (unknown : accepts udpRxPort m = .error thrown)
      (ring : after.ring = before.ring) (freed : after.freed = before.freed)
      (escaped : after.escaped = some thrown)

theorem processPacket_handled (running : thread.escaped = none) :
    Handled udpRxPort m thread (processPacket udpRxPort thread m) := by
  simp only [processPacket, running, Option.isSome_none, Bool.false_eq_true, if_false]
  split
  · rename_i accepted
    exact .accepted accepted rfl rfl rfl
  · rename_i refused
    exact .refused refused rfl rfl rfl
  · rename_i thrown unknown
    exact .thrown thrown unknown rfl rfl rfl

/-- The thread counts the frames it receives in order, all of them unless a header
ended it before. -/
theorem rxThread_tracking (udpRxPort : UInt16) (thread : RxThread) (bursts : List Burst) :
    ∃ handled, handled <+: bursts.flatMap Subtype.val ∧
      (rxThread udpRxPort thread bursts).tracking = thread.tracking.trackAll handled ∧
      ((rxThread udpRxPort thread bursts).escaped = none →
        handled = bursts.flatMap Subtype.val) := by
  rw [rxThread_eq]
  have advances {thread : RxThread} (m : Mbuf) (running : ¬ thread.escaped.isSome = true) :
      (processPacket udpRxPort thread m).tracking = thread.tracking.track m :=
    processPacket_tracking (Option.not_isSome_iff_eq_none.mp running)
  obtain ⟨handled, part, tracked, whole⟩ := Transition.foldl_handled (processPacket udpRxPort)
    (fun thread => thread.escaped.isSome = true) tracking Tracking.track
    (fun _ escaped => processPacket_escaped escaped) advances thread (bursts.flatMap Subtype.val)
  exact ⟨handled, part, tracked, fun running => whole (Option.not_isSome_iff_eq_none.mpr running)⟩

/-- The frames that the loop comes to handle: all up to the first that throws. -/
def handledFrames (udpRxPort : UInt16) : List Mbuf → List Mbuf
  | [] => []
  | m :: rest =>
    match accepts udpRxPort m with
    | .ok _ => m :: handledFrames udpRxPort rest
    | .error _ => [m]

theorem handledFrames_eq {frames : List Mbuf}
    (decided : ∀ m ∈ frames, ∃ keep, accepts udpRxPort m = .ok keep) :
    handledFrames udpRxPort frames = frames := by
  induction frames with
  | nil => rfl
  | cons m rest ih =>
    obtain ⟨keep, known⟩ := decided m List.mem_cons_self
    have later := ih fun other member => decided other (List.mem_cons_of_mem _ member)
    rw [handledFrames, known, later]

theorem handledFrames_initial (frames : List Mbuf) : handledFrames udpRxPort frames <+: frames := by
  induction frames with
  | nil => exact List.nil_prefix
  | cons m rest ih =>
    rw [handledFrames]
    cases accepts udpRxPort m with
    | ok keep => exact (List.prefix_cons_inj m).mpr ih
    | error thrown => exact (List.prefix_cons_inj m).mpr List.nil_prefix

theorem foldl_tracking (running : thread.escaped = none) (frames : List Mbuf) :
    (frames.foldl (processPacket udpRxPort) thread).tracking =
      thread.tracking.trackAll (handledFrames udpRxPort frames) := by
  induction frames generalizing thread with
  | nil => rfl
  | cons m rest ih =>
    have tracked : (processPacket udpRxPort thread m).tracking = thread.tracking.track m :=
      processPacket_tracking running
    have handled : Handled udpRxPort m thread (processPacket udpRxPort thread m) :=
      processPacket_handled running
    rw [List.foldl_cons, handledFrames]
    cases handled with
    | accepted accepted ring freed escaped =>
      rw [accepted, ih escaped, tracked, Tracking.trackAll, Tracking.trackAll, List.foldl_cons]
    | refused refused ring freed escaped =>
      rw [refused, ih escaped, tracked, Tracking.trackAll, Tracking.trackAll, List.foldl_cons]
    | thrown thrown unknown ring freed escaped =>
      rw [unknown, foldl_escaped (by rw [escaped]; rfl), tracked]
      rfl

/-- While no frame throws, the accepted ones go to the ring and all others are freed. -/
theorem foldl_fates {frames : List Mbuf} (running : thread.escaped = none)
    (decided : ∀ m ∈ frames, ∃ keep, accepts udpRxPort m = .ok keep) :
    (frames.foldl (processPacket udpRxPort) thread).escaped = none ∧
      (frames.foldl (processPacket udpRxPort) thread).ring =
        (frames.filter (Accepted udpRxPort ·)).foldl (fun ring m => (ring.enqueue m).2)
          thread.ring ∧
      (frames.foldl (processPacket udpRxPort) thread).freed =
        thread.freed ++ frames.filter (¬ Accepted udpRxPort ·) := by
  induction frames generalizing thread with
  | nil => exact ⟨running, rfl, (List.append_nil _).symm⟩
  | cons m rest ih =>
    have handled : Handled udpRxPort m thread (processPacket udpRxPort thread m) :=
      processPacket_handled running
    have later {after : RxThread} (goes : after.escaped = none) := ih goes fun other member =>
      decided other (List.mem_cons_of_mem _ member)
    rw [List.foldl_cons]
    cases handled with
    | accepted accepted ring freed escaped =>
      rw [(later escaped).2.1, (later escaped).2.2, ring, freed,
        List.filter_cons_of_pos (by simpa using accepted),
        List.filter_cons_of_neg (by simpa using accepted)]
      exact ⟨(later escaped).1, rfl, rfl⟩
    | refused refused ring freed escaped =>
      have other : ¬ Accepted udpRxPort m := not_accepted refused (by decide)
      rw [(later escaped).2.1, (later escaped).2.2, ring, freed,
        List.filter_cons_of_neg (by simpa using other),
        List.filter_cons_of_pos (by simpa using other), List.append_assoc]
      exact ⟨(later escaped).1, rfl, rfl⟩
    | thrown thrown unknown =>
      obtain ⟨keep, known⟩ := decided m List.mem_cons_self
      rw [known] at unknown
      contradiction

theorem foldl_running (running : thread.escaped = none) {frames : List Mbuf}
    (decided : ∀ m ∈ frames, ∃ keep, accepts udpRxPort m = .ok keep) :
    (frames.foldl (processPacket udpRxPort) thread).escaped = none :=
  (foldl_fates running decided).1

end RxThread
end JerryDriver
