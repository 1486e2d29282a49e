import JerryDriver.Dpdk.SequenceTracking
import JerryDriver.Library.Transition

/-! The loop of `dumpThread`: frames are counted as in `RXThread`, their headers and
words are collected in three lists, and from three seconds on every frame makes the
thread write the lists to a freshly truncated file and ask for the end. Clock
readings are nanoseconds of the steady clock. -/
namespace JerryDriver
open HrzrHeaderParser Definitions ByteMemory

structure Arrival where
  frame : Mbuf
  clock : Nat

abbrev DumpBurst := { arrivals : List Arrival // arrivals.length ≤ 32 }

inductive DumpStop where
  | escaped (thrown : Thrown)
  | fault (fault : MemoryFault)

structure DumpThread where
  begin_ : Nat
  seq : Int
  totals : Totals
  hrzrHeader : List UInt64
  hrzrPayload : List UInt32
  hrzrMeta : List UInt32
  /-- The lines of `hrzr_samples.txt`, if it was opened. -/
  file : Option (List String)
  quit : Bool
  freed : List Mbuf
  skips : List (Option Skip)
  stopped : Option DumpStop

namespace DumpThread

def start (begin_ : Nat) (totals : Totals) : DumpThread where
  begin_ := begin_
  seq := 0
  totals := totals
  hrzrHeader := []
  hrzrPayload := []
  hrzrMeta := []
  file := none
  quit := false
  freed := []
  skips := []
  stopped := none

def wordsAt (m : Mbuf) (count : Nat) : List UInt32 :=
  (List.range count).map fun i => load32 m.data (HrzrPacketAllHeaders.size + 4 * i)

/-- `std::hex << std::setfill('0') << std::setw(width)`. -/
def hexField (width value : Nat) : String :=
  String.ofList (List.leftpad width '0' (Nat.toDigits 16 value))

/-- `count` times `front()` and `pop_front()`; on an empty list these are undefined. -/
def popFront : (count : Nat) → List UInt32 → Except DumpStop (String × List UInt32)
  | 0, list => .ok ("", list)
  | _ + 1, [] => .error (.fault .accessToEmptyList)
  | count + 1, word :: rest => do
    let (text, rest) ← popFront count rest
    return (hexField 8 word.toNat ++ text, rest)

def dumpLine (header : UInt64) (payload meta_ : List UInt32) :
    Except DumpStop (String × List UInt32 × List UInt32) := do
  let type ← (getControlFromHeader header).mapError DumpStop.escaped
  let (samples, payload) ←
    if isValidPacketType type then popFront samplesPerPacket payload else .ok ("", payload)
  let (words, meta_) ← if type = .metadata then popFront 10 meta_ else .ok ("", meta_)
  return (hexField 16 header.toNat ++ samples ++ words, payload, meta_)

/-- The writing block: one line for each collected header, until none is left. -/
def drain : List UInt64 → List UInt32 → List UInt32 →
    Except DumpStop (List String × List UInt32 × List UInt32)
  | [], payload, meta_ => .ok ([], payload, meta_)
  | header :: rest, payload, meta_ => do
    let (line, payload, meta_) ← dumpLine header payload meta_
    let (lines, payload, meta_) ← drain rest payload meta_
    return (line :: lines, payload, meta_)

/-- Opening the file by name truncates it, so only this block's lines remain. -/
def writeBlock (thread : DumpThread) : DumpThread :=
  match drain thread.hrzrHeader thread.hrzrPayload thread.hrzrMeta with
  | .ok (lines, payload, meta_) =>
    { thread with hrzrHeader := [], hrzrPayload := payload, hrzrMeta := meta_
                  file := some lines, quit := true }
  | .error stop => { thread with stopped := some stop }

/-- The collecting block; `every_other` is 1, so every frame is collected. -/
def collect (thread : DumpThread) (m : Mbuf) : DumpThread :=
  let thread := { thread with hrzrHeader := thread.hrzrHeader ++ [m.headers.hrzr] }
  match getControlFromHeader m.headers.hrzr with
  | .error thrown => { thread with stopped := some (.escaped thrown) }
  | .ok type =>
    if type = .metadata then { thread with hrzrMeta := thread.hrzrMeta ++ wordsAt m 10 }
    else { thread with hrzrPayload := thread.hrzrPayload ++ wordsAt m samplesPerPacket }

/-- `duration_cast<std::chrono::seconds>(end - begin).count() >= 3` -/
def writeIfDue (thread : DumpThread) (clock : Nat) : DumpThread :=
  if (clock - thread.begin_) / 1000000000 ≥ 3 then writeBlock thread else thread

def processPacket (thread : DumpThread) (arrival : Arrival) : DumpThread :=
  if thread.stopped.isSome then thread else
  let m := arrival.frame
  let (seq, totals, skip) := trackSequence thread.seq thread.totals m.headers.hrzr
  let thread := { thread with seq, totals, skips := thread.skips ++ [skip] }
  let thread := collect thread m
  if thread.stopped.isSome then thread else
  let thread := writeIfDue thread arrival.clock
  if thread.stopped.isSome then thread else
  { thread with freed := thread.freed ++ [m] }

def processBurst (thread : DumpThread) (burst : DumpBurst) : DumpThread :=
  burst.val.foldl processPacket thread

/-- Iterations of the loop; `quit` is looked at before each burst is received. -/
def dumpThread (thread : DumpThread) : List DumpBurst → DumpThread
  | [] => thread
  | burst :: rest =>
    if thread.quit = true ∨ thread.stopped.isSome then thread
    else dumpThread (processBurst thread burst) rest

variable {thread : DumpThread} {arrival : Arrival} {m : Mbuf}

theorem processPacket_stopped (stopped : thread.stopped.isSome = true) :
    processPacket thread arrival = thread := by
  rw [processPacket, if_pos stopped]

def tracking (thread : DumpThread) : Tracking := ⟨thread.seq, thread.totals, thread.skips⟩

theorem collect_tracking : (collect thread m).tracking = thread.tracking := by
  unfold collect
  split
  · rfl
  · split <;> rfl

theorem writeIfDue_tracking (clock : Nat) :
    (writeIfDue thread clock).tracking = thread.tracking := by
  unfold writeIfDue writeBlock
  split
  · split <;> rfl
  · rfl

/-- Counting is the same as in `RXThread`; nothing later in the body undoes it. -/
theorem processPacket_tracking (running : thread.stopped = none) :
    (processPacket thread arrival).tracking = thread.tracking.track arrival.frame := by
  simp only [processPacket, running, Option.isSome_none, Bool.false_eq_true, if_false]
  split
  · exact collect_tracking
  · split <;> exact (writeIfDue_tracking arrival.clock).trans collect_tracking

theorem processBurst_tracking (thread : DumpThread) (burst : DumpBurst) :
    ∃ handled, handled <+: burst.val.map Arrival.frame ∧
      (processBurst thread burst).tracking = thread.tracking.trackAll handled ∧
      ((processBurst thread burst).stopped = none → handled = burst.val.map Arrival.frame) := by
  have advances {thread : DumpThread} (arrival : Arrival)
      (running : ¬ thread.stopped.isSome = true) :
      (processPacket thread arrival).tracking = thread.tracking.track arrival.frame :=
    processPacket_tracking (Option.not_isSome_iff_eq_none.mp running)
  obtain ⟨handled, part, tracked, whole⟩ := Transition.foldl_handled processPacket
    (fun thread => thread.stopped.isSome = true) tracking
    (fun tracking arrival => tracking.track arrival.frame)
    (fun _ stopped => processPacket_stopped stopped) advances thread burst.val
  refine ⟨handled.map Arrival.frame, part.map _, ?_, fun running => ?_⟩
  · rw [Tracking.trackAll, List.foldl_map]
    exact tracked
  · rw [whole (Option.not_isSome_iff_eq_none.mpr running)]

/-- The thread counts the frames it receives in order, until it is asked to end or a
frame stops it. -/
theorem dumpThread_tracking (thread : DumpThread) (bursts : List DumpBurst) :
    ∃ handled, handled <+: (bursts.flatMap Subtype.val).map Arrival.frame ∧
      (dumpThread thread bursts).tracking = thread.tracking.trackAll handled := by
  induction bursts generalizing thread with
  | nil => exact ⟨[], List.nil_prefix, rfl⟩
  | cons burst rest ih =>
    rw [dumpThread]
    split
    · exact ⟨[], List.nil_prefix, rfl⟩
    · obtain ⟨first, firstPart, tracked, whole⟩ := processBurst_tracking thread burst
      obtain ⟨later, laterPart, after⟩ := ih (processBurst thread burst)
      rw [List.flatMap_cons, List.map_append]
      cases state : (processBurst thread burst).stopped with
      | none =>
        refine ⟨first ++ later, ?_, ?_⟩
        · rw [whole state]
          exact (List.prefix_append_right_inj _).mpr laterPart
        · rw [after, tracked, Tracking.trackAll, Tracking.trackAll,
            Tracking.trackAll, List.foldl_append]
      | some stop =>
        refine ⟨first, firstPart.trans (List.prefix_append _ _), ?_⟩
        cases rest with
        | nil => exact tracked
        | cons next rest =>
          rw [dumpThread, if_pos (.inr (by rw [state]; rfl))]
          exact tracked

end DumpThread
end JerryDriver
