import JerryDriver.Dpdk.DumpThread
import Mathlib.Data.List.Infix

/-! The three lists of `dumpThread`. Every header pushed is followed by the words that
its line will take, so the writing block finds what it pops: while all control fields are
recognised, a frame is either collected or written out with all that was collected. -/
namespace JerryDriver.DumpThread
open HrzrHeaderParser Definitions

def payloadWords (header : UInt64) : Nat :=
  match getControlFromHeader header with
  | .ok type => if isValidPacketType type then samplesPerPacket else 0
  | .error _ => 0

def metaWords (header : UInt64) : Nat :=
  if getControlFromHeader header = .ok .metadata then 10 else 0

def hexWords (words : List UInt32) : String :=
  words.foldr (fun word text => hexField 8 word.toNat ++ text) ""

def lineOf (header : UInt64) (payload meta_ : List UInt32) : String :=
  hexField 16 header.toNat ++ hexWords (payload.take (payloadWords header)) ++
    hexWords (meta_.take (metaWords header))

def linesOf : List UInt64 → List UInt32 → List UInt32 → List String
  | [], _, _ => []
  | header :: rest, payload, meta_ =>
    lineOf header payload meta_ ::
      linesOf rest (payload.drop (payloadWords header)) (meta_.drop (metaWords header))

variable {thread before after : DumpThread} {arrival : Arrival} {m : Mbuf} {header : UInt64}
  {payload meta_ : List UInt32}

theorem popFront_ok {count : Nat} {list : List UInt32} (enough : count ≤ list.length) :
    popFront count list = .ok (hexWords (list.take count), list.drop count) := by
  induction count generalizing list with
  | zero => rfl
  | succ count ih =>
    cases list with
    | nil => contradiction
    | cons word rest =>
      rw [popFront, ih (Nat.le_of_succ_le_succ enough)]
      rfl

theorem dumpLine_ok (recognised : Recognised header)
    (samples : payloadWords header ≤ payload.length) (words : metaWords header ≤ meta_.length) :
    dumpLine header payload meta_ = .ok (lineOf header payload meta_,
      payload.drop (payloadWords header), meta_.drop (metaWords header)) := by
  obtain ⟨type, control⟩ := recognised
  simp only [dumpLine, lineOf, payloadWords, metaWords, control, Except.mapError, bind,
    Except.bind, pure, Except.pure, Except.ok.injEq] at samples words ⊢
  by_cases valid : isValidPacketType type
  · have other : type ≠ .metadata := by
      rintro rfl
      contradiction
    simp only [valid, other, if_true, if_false, hexWords] at samples ⊢
    rw [popFront_ok samples]
    rfl
  · by_cases metadata : type = .metadata
    · simp only [metadata, if_true] at words ⊢
      rw [popFront_ok words]
      rfl
    · simp only [valid, metadata, if_false, Bool.false_eq_true]
      rfl

theorem drain_ok {headers : List UInt64} (recognised : ∀ header ∈ headers, Recognised header)
    (samples : (headers.map payloadWords).sum ≤ payload.length)
    (words : (headers.map metaWords).sum ≤ meta_.length) :
    drain headers payload meta_ = .ok (linesOf headers payload meta_,
      payload.drop (headers.map payloadWords).sum, meta_.drop (headers.map metaWords).sum) := by
  induction headers generalizing payload meta_ with
  | nil => rfl
  | cons header rest ih =>
    rw [List.map_cons, List.sum_cons] at samples words
    have line := @dumpLine_ok header payload meta_ (recognised header List.mem_cons_self)
      (by omega) (by omega)
    have later := @ih (payload.drop (payloadWords header)) (meta_.drop (metaWords header))
      (fun other member => recognised other (List.mem_cons_of_mem _ member))
      (by rw [List.length_drop]; omega) (by rw [List.length_drop]; omega)
    simp only [drain, line, later, bind, Except.bind, pure, Except.pure, linesOf, List.map_cons,
      List.sum_cons, List.drop_drop]

/-- One line for each header, and the header in front of it. -/
theorem linesOf_begin (headers : List UInt64) (payload meta_ : List UInt32) :
    List.Forall₂ (fun header line => (hexField 16 header.toNat).toList <+: line.toList) headers
      (linesOf headers payload meta_) := by
  induction headers generalizing payload meta_ with
  | nil => exact .nil
  | cons header rest ih =>
    refine .cons ?_ (ih _ _)
    rw [lineOf, String.append_assoc, String.toList_append]
    exact List.prefix_append _ _

/-- What the lists owe each other between two frames. -/
structure Stocked (thread : DumpThread) : Prop where
  recognised : ∀ header ∈ thread.hrzrHeader, Recognised header
  payload : (thread.hrzrHeader.map payloadWords).sum ≤ thread.hrzrPayload.length
  meta_ : (thread.hrzrHeader.map metaWords).sum = thread.hrzrMeta.length

theorem stocked_start (begin_ : Nat) (totals : Totals) : Stocked (start begin_ totals) :=
  ⟨fun _ member => absurd member List.not_mem_nil, Nat.le_refl 0, rfl⟩

theorem collect_headers :
    (collect thread m).hrzrHeader = thread.hrzrHeader ++ [m.headers.hrzr] := by
  unfold collect
  split
  · rfl
  · split <;> rfl

/-- Collecting a frame touches nothing but the lists. -/
theorem collect_ok (recognised : Recognised m.headers.hrzr) :
    collect thread m = { thread with
      hrzrHeader := (collect thread m).hrzrHeader
      hrzrPayload := (collect thread m).hrzrPayload
      hrzrMeta := (collect thread m).hrzrMeta } := by
  obtain ⟨type, control⟩ := recognised
  simp only [collect, control]
  split <;> rfl

theorem stocked_collect (recognised : Recognised m.headers.hrzr) (stocked : Stocked thread) :
    Stocked (collect thread m) := by
  have headers : ∀ header ∈ thread.hrzrHeader ++ [m.headers.hrzr], Recognised header := by
    intro header member
    rcases List.mem_append.mp member with earlier | last
    · exact stocked.recognised header earlier
    · rw [List.mem_singleton.mp last]
      exact recognised
  have payload := stocked.payload
  have meta_ := stocked.meta_
  obtain ⟨type, control⟩ := recognised
  simp only [collect, control]
  split
  · rename_i metadata
    subst metadata
    have samples : payloadWords m.headers.hrzr = 0 := by
      simp only [payloadWords, control]
      rfl
    have words : metaWords m.headers.hrzr = 10 := if_pos control
    refine ⟨headers, ?_, ?_⟩
    · simpa [samples] using payload
    · simpa [words, wordsAt] using meta_
  · rename_i other
    have samples : payloadWords m.headers.hrzr ≤ samplesPerPacket := by
      simp only [payloadWords, control]
      split
      · exact Nat.le_refl _
      · exact Nat.zero_le _
    have words : metaWords m.headers.hrzr = 0 := by
      apply if_neg
      rw [control]
      exact fun same => other (Except.ok.inj same)
    refine ⟨headers, ?_, ?_⟩
    · simp only [List.map_append, List.map_cons, List.map_nil, List.sum_append, List.sum_cons,
        List.sum_nil, List.length_append, wordsAt, List.length_map, List.length_range]
      omega
    · simpa [words] using meta_

/-- The block writes a line for everything collected and leaves no metadata behind. -/
theorem writeBlock_ok (stocked : Stocked thread) : writeBlock thread = { thread with
    hrzrHeader := []
    hrzrPayload := thread.hrzrPayload.drop (thread.hrzrHeader.map payloadWords).sum
    hrzrMeta := []
    file := some (linesOf thread.hrzrHeader thread.hrzrPayload thread.hrzrMeta)
    quit := true } := by
  have drained := drain_ok stocked.recognised stocked.payload (Nat.le_of_eq stocked.meta_)
  rw [stocked.meta_, List.drop_length] at drained
  simp only [writeBlock, drained]

/-- Three seconds after the thread began. -/
def Due (begin_ clock : Nat) : Prop := (clock - begin_) / 1000000000 ≥ 3

instance (begin_ clock : Nat) : Decidable (Due begin_ clock) := inferInstanceAs (Decidable (_ ≥ _))

theorem Due.later {begin_ clock next : Nat} (due : Due begin_ clock) (later : clock ≤ next) :
    Due begin_ next :=
  Nat.le_trans due (Nat.div_le_div_right (Nat.sub_le_sub_right later begin_))

/-- What becomes of a frame whose control field is recognised, and of those before it. -/
inductive Recorded (arrival : Arrival) (before after : DumpThread) : Prop where
  | kept (early : ¬ Due before.begin_ arrival.clock)
      (headers : after.hrzrHeader = before.hrzrHeader ++ [arrival.frame.headers.hrzr])
      (file : after.file = before.file) (quit : after.quit = before.quit)
  | written (due : Due before.begin_ arrival.clock) (headers : after.hrzrHeader = [])
      (file : after.file = some (linesOf (before.hrzrHeader ++ [arrival.frame.headers.hrzr])
        (collect before arrival.frame).hrzrPayload (collect before arrival.frame).hrzrMeta))
      (quit : after.quit = true)

/-- The thread behind the counting of a frame. -/
def counted (thread : DumpThread) (m : Mbuf) : DumpThread :=
  let track := trackSequence thread.seq thread.totals m.headers.hrzr
  { thread with seq := track.1, totals := track.2.1, skips := thread.skips ++ [track.2.2] }

theorem processPacket_running (running : thread.stopped = none) :
    processPacket thread arrival =
      let taken := collect (thread.counted arrival.frame) arrival.frame
      if taken.stopped.isSome then taken else
      let block := writeIfDue taken arrival.clock
      if block.stopped.isSome then block else
      { block with freed := block.freed ++ [arrival.frame] } := by
  have goes : ¬ thread.stopped.isSome = true := by
    rw [running]
    exact Bool.false_ne_true
  rw [processPacket, if_neg goes]
  rfl

theorem collect_counted :
    (collect (thread.counted m) m).hrzrPayload = (collect thread m).hrzrPayload ∧
    (collect (thread.counted m) m).hrzrMeta = (collect thread m).hrzrMeta := by
  unfold collect
  cases getControlFromHeader m.headers.hrzr with
  | error thrown => exact ⟨rfl, rfl⟩
  | ok type =>
    simp only
    split <;> exact ⟨rfl, rfl⟩

/-- A running thread whose lists are in order takes every frame it recognises. -/
structure Live (thread : DumpThread) : Prop where
  running : thread.stopped = none
  stocked : Stocked thread

theorem live_start (begin_ : Nat) (totals : Totals) : Live (start begin_ totals) :=
  ⟨rfl, stocked_start begin_ totals⟩

theorem live_taken (live : Live thread) (recognised : Recognised m.headers.hrzr) :
    Live (collect (thread.counted m) m) := by
  constructor
  · rw [collect_ok recognised]
    exact live.running
  · exact stocked_collect recognised
      ⟨live.stocked.recognised, live.stocked.payload, live.stocked.meta_⟩

theorem live_writeIfDue (live : Live thread) (clock : Nat) : Live (writeIfDue thread clock) := by
  unfold writeIfDue
  split
  · rw [writeBlock_ok live.stocked]
    exact ⟨live.running, fun _ member => absurd member List.not_mem_nil, Nat.zero_le _, rfl⟩
  · exact live

theorem processPacket_live (live : Live thread)
    (recognised : Recognised arrival.frame.headers.hrzr) :
    processPacket thread arrival =
      let block := writeIfDue (collect (thread.counted arrival.frame) arrival.frame) arrival.clock
      { block with freed := block.freed ++ [arrival.frame] } := by
  have taken := live_taken live recognised
  have block := live_writeIfDue taken arrival.clock
  simp only [processPacket_running live.running, taken.running, block.running,
    Option.isSome_none, Bool.false_eq_true, if_false]

theorem taken_spares (recognised : Recognised m.headers.hrzr) :
    (collect (thread.counted m) m).begin_ = thread.begin_ ∧
      (collect (thread.counted m) m).file = thread.file ∧
      (collect (thread.counted m) m).quit = thread.quit ∧
      (collect (thread.counted m) m).freed = thread.freed := by
  rw [collect_ok recognised]
  exact ⟨rfl, rfl, rfl, rfl⟩

theorem processPacket_early (live : Live thread)
    (recognised : Recognised arrival.frame.headers.hrzr)
    (early : ¬ Due thread.begin_ arrival.clock) :
    processPacket thread arrival =
      let taken := collect (thread.counted arrival.frame) arrival.frame
      { taken with freed := taken.freed ++ [arrival.frame] } := by
  have later : writeIfDue (collect (thread.counted arrival.frame) arrival.frame) arrival.clock =
      collect (thread.counted arrival.frame) arrival.frame :=
    if_neg (by rw [(taken_spares recognised).1]; exact early)
  rw [processPacket_live live recognised, later]

theorem processPacket_due (live : Live thread)
    (recognised : Recognised arrival.frame.headers.hrzr)
    (due : Due thread.begin_ arrival.clock) :
    processPacket thread arrival =
      let block := writeBlock (collect (thread.counted arrival.frame) arrival.frame)
      { block with freed := block.freed ++ [arrival.frame] } := by
  have now : writeIfDue (collect (thread.counted arrival.frame) arrival.frame) arrival.clock =
      writeBlock (collect (thread.counted arrival.frame) arrival.frame) :=
    if_pos (by rw [(taken_spares recognised).1]; exact due)
  rw [processPacket_live live recognised, now]

theorem processPacket_recorded (live : Live thread)
    (recognised : Recognised arrival.frame.headers.hrzr) :
    Live (processPacket thread arrival) ∧ Recorded arrival thread (processPacket thread arrival) ∧
      (processPacket thread arrival).begin_ = thread.begin_ ∧
      (processPacket thread arrival).freed = thread.freed ++ [arrival.frame] := by
  have taken := live_taken live recognised
  have block := live_writeIfDue taken arrival.clock
  obtain ⟨began, file, quit, freed⟩ := @taken_spares thread arrival.frame recognised
  constructor
  · rw [processPacket_live live recognised]
    exact ⟨block.running, block.stocked.recognised, block.stocked.payload, block.stocked.meta_⟩
  by_cases due : Due thread.begin_ arrival.clock
  · rw [processPacket_due live recognised due, writeBlock_ok taken.stocked, collect_headers,
      collect_counted.1, collect_counted.2]
    exact ⟨.written due rfl rfl rfl, began, congrArg (· ++ [arrival.frame]) freed⟩
  · rw [processPacket_early live recognised due]
    exact ⟨.kept due collect_headers file quit, began, congrArg (· ++ [arrival.frame]) freed⟩

/-! ## Whole runs -/

variable {arrivals : List Arrival}

theorem foldl_live (live : Live thread)
    (recognised : ∀ arrival ∈ arrivals, Recognised arrival.frame.headers.hrzr) :
    Live (arrivals.foldl processPacket thread) ∧
      (arrivals.foldl processPacket thread).begin_ = thread.begin_ ∧
      ((arrivals.foldl processPacket thread).quit = true ↔
        thread.quit = true ∨ ∃ arrival ∈ arrivals, Due thread.begin_ arrival.clock) := by
  induction arrivals generalizing thread with
  | nil => exact ⟨live, rfl, by simp⟩
  | cons arrival rest ih =>
    obtain ⟨alive, recorded, began, freed⟩ :=
      processPacket_recorded live (recognised arrival List.mem_cons_self)
    obtain ⟨later, begins, ended⟩ :=
      ih alive fun other member => recognised other (List.mem_cons_of_mem _ member)
    refine ⟨later, begins.trans began, ?_⟩
    rw [List.foldl_cons, ended, began]
    simp only [List.exists_mem_cons_iff, ← or_assoc]
    refine or_congr_left ?_
    cases recorded with
    | kept early headers file quit => simp only [quit, early, or_false]
    | written due headers file quit => simp only [quit, due, or_true]

/-- Before the time is up the headers pile up and the file is left alone. -/
theorem foldl_early (live : Live thread)
    (recognised : ∀ arrival ∈ arrivals, Recognised arrival.frame.headers.hrzr)
    (early : ∀ arrival ∈ arrivals, ¬ Due thread.begin_ arrival.clock) :
    (arrivals.foldl processPacket thread).hrzrHeader =
        thread.hrzrHeader ++ arrivals.map (·.frame.headers.hrzr) ∧
      (arrivals.foldl processPacket thread).file = thread.file := by
  induction arrivals generalizing thread with
  | nil => exact ⟨(List.append_nil _).symm, rfl⟩
  | cons arrival rest ih =>
    obtain ⟨alive, recorded, began, freed⟩ :=
      processPacket_recorded live (recognised arrival List.mem_cons_self)
    obtain ⟨headers, file⟩ := ih alive
      (fun other member => recognised other (List.mem_cons_of_mem _ member))
      (fun other member => by rw [began]; exact early other (List.mem_cons_of_mem _ member))
    cases recorded with
    | written due => exact absurd due (early arrival List.mem_cons_self)
    | kept _ pushed kept quit =>
      rw [List.foldl_cons, headers, file, pushed, kept, List.append_assoc]
      exact ⟨rfl, rfl⟩

/-- What the thread receives: all bursts up to the first in which the time is up. -/
def receivedBursts (begin_ : Nat) : List DumpBurst → List DumpBurst
  | [] => []
  | burst :: rest =>
    if ∃ arrival ∈ burst.val, Due begin_ arrival.clock then [burst]
    else burst :: receivedBursts begin_ rest

def received (begin_ : Nat) (bursts : List DumpBurst) : List Arrival :=
  (receivedBursts begin_ bursts).flatMap Subtype.val

theorem received_single (begin_ : Nat) (burst : DumpBurst) :
    received begin_ [burst] = burst.val := by
  rw [received, receivedBursts]
  split
  · exact List.flatMap_singleton ..
  · exact List.flatMap_singleton ..

theorem dumpThread_ended (ended : thread.quit = true ∨ thread.stopped.isSome = true)
    (bursts : List DumpBurst) : dumpThread thread bursts = thread := by
  cases bursts with
  | nil => rfl
  | cons burst rest => rw [dumpThread, if_pos ended]

theorem dumpThread_burst (live : Live thread) (going : thread.quit = false) (burst : DumpBurst)
    (rest : List DumpBurst) :
    dumpThread thread (burst :: rest) = dumpThread (processBurst thread burst) rest := by
  rw [dumpThread, if_neg]
  simp [going, live.running]

/-- A run is the handling of what it receives, one frame after the other. -/
theorem dumpThread_received (live : Live thread) (going : thread.quit = false)
    {bursts : List DumpBurst} (recognised : ∀ arrival ∈ received thread.begin_ bursts,
      Recognised arrival.frame.headers.hrzr) :
    dumpThread thread bursts = (received thread.begin_ bursts).foldl processPacket thread := by
  induction bursts generalizing thread with
  | nil => rfl
  | cons burst rest ih =>
    rw [dumpThread_burst live going, received, receivedBursts]
    rw [received, receivedBursts] at recognised
    split
    · rename_i due
      rw [if_pos due, List.flatMap_singleton] at recognised
      obtain ⟨after, began, ended⟩ := foldl_live live recognised
      rw [List.flatMap_singleton]
      exact dumpThread_ended (.inl (ended.mpr (.inr due))) rest
    · rename_i early
      rw [if_neg early, List.flatMap_cons] at recognised
      obtain ⟨after, began, ended⟩ := foldl_live live fun arrival member =>
        recognised arrival (List.mem_append_left _ member)
      have goes : (processBurst thread burst).quit = false := by
        rw [← Bool.not_eq_true, processBurst, ended, going]
        simpa using early
      have rest_ := @ih (processBurst thread burst) after goes fun arrival member =>
        recognised arrival (List.mem_append_right _ (by rwa [processBurst, began] at member))
      rw [rest_, List.flatMap_cons, List.foldl_append, processBurst, began]
      rfl

/-! ## What the thread comes to handle -/

/-- The frames of those received that the loop comes to: all up to the first that throws. -/
def handledFrames : List Arrival → List Mbuf
  | [] => []
  | arrival :: rest =>
    if Recognised arrival.frame.headers.hrzr then arrival.frame :: handledFrames rest
    else [arrival.frame]

theorem handledFrames_append {first : List Arrival} (rest : List Arrival)
    (recognised : ∀ arrival ∈ first, Recognised arrival.frame.headers.hrzr) :
    handledFrames (first ++ rest) = handledFrames first ++ handledFrames rest := by
  induction first with
  | nil => rfl
  | cons arrival first ih =>
    have known := recognised arrival List.mem_cons_self
    have later := ih fun other member => recognised other (List.mem_cons_of_mem _ member)
    rw [List.cons_append, handledFrames, handledFrames, if_pos known, if_pos known, later,
      List.cons_append]

theorem handledFrames_append_of_unknown {first : List Arrival} (rest : List Arrival)
    (unknown : ∃ arrival ∈ first, ¬ Recognised arrival.frame.headers.hrzr) :
    handledFrames (first ++ rest) = handledFrames first := by
  induction first with
  | nil => simp at unknown
  | cons arrival first ih =>
    rw [List.cons_append, handledFrames, handledFrames]
    by_cases known : Recognised arrival.frame.headers.hrzr
    · obtain ⟨other, member, strange⟩ := unknown
      rcases List.mem_cons.mp member with rfl | later
      · exact absurd known strange
      · rw [if_pos known, if_pos known, ih ⟨other, later, strange⟩]
    · rw [if_neg known, if_neg known]

theorem handledFrames_eq
    (recognised : ∀ arrival ∈ arrivals, Recognised arrival.frame.headers.hrzr) :
    handledFrames arrivals = arrivals.map Arrival.frame := by
  induction arrivals with
  | nil => rfl
  | cons arrival rest ih =>
    rw [handledFrames, if_pos (recognised arrival List.mem_cons_self),
      ih fun other member => recognised other (List.mem_cons_of_mem _ member), List.map_cons]

theorem handledFrames_initial (arrivals : List Arrival) :
    handledFrames arrivals <+: arrivals.map Arrival.frame := by
  induction arrivals with
  | nil => exact List.nil_prefix
  | cons arrival rest ih =>
    rw [handledFrames]
    split
    · exact (List.prefix_cons_inj _).mpr ih
    · exact (List.prefix_cons_inj _).mpr List.nil_prefix

theorem receivedBursts_initial (begin_ : Nat) (bursts : List DumpBurst) :
    receivedBursts begin_ bursts <+: bursts := by
  induction bursts with
  | nil => exact List.nil_prefix
  | cons burst rest ih =>
    rw [receivedBursts]
    split
    · exact (List.prefix_cons_inj _).mpr List.nil_prefix
    · exact (List.prefix_cons_inj _).mpr ih

theorem received_initial (begin_ : Nat) (bursts : List DumpBurst) :
    received begin_ bursts <+: bursts.flatMap Subtype.val :=
  (receivedBursts_initial begin_ bursts).flatMap _

/-- The header is decoded as soon as it is collected, so the frame is not freed either. -/
theorem processPacket_unknown (running : thread.stopped = none)
    (unknown : ¬ Recognised arrival.frame.headers.hrzr) :
    ∃ thrown, (processPacket thread arrival).stopped = some (.escaped thrown) := by
  obtain ⟨thrown, control⟩ := (not_recognised_iff _).mp unknown
  refine ⟨thrown, ?_⟩
  simp only [processPacket_running running, collect, control, Option.isSome_some, if_true]

theorem foldl_escapes (live : Live thread) (member : arrival ∈ arrivals)
    (unknown : ¬ Recognised arrival.frame.headers.hrzr) :
    ∃ thrown, (arrivals.foldl processPacket thread).stopped = some (.escaped thrown) := by
  induction arrivals generalizing thread with
  | nil => contradiction
  | cons first rest ih =>
    rw [List.foldl_cons]
    by_cases known : Recognised first.frame.headers.hrzr
    · rcases List.mem_cons.mp member with rfl | later
      · exact absurd known unknown
      · exact ih (processPacket_recorded live known).1 later
    · obtain ⟨thrown, stopped⟩ := processPacket_unknown live.running known
      refine ⟨thrown, ?_⟩
      rw [Transition.foldl_stopped (fun _ => processPacket_stopped) (by rw [stopped]; rfl)]
      exact stopped

theorem foldl_tracking (live : Live thread) (arrivals : List Arrival) :
    (arrivals.foldl processPacket thread).tracking =
      thread.tracking.trackAll (handledFrames arrivals) := by
  induction arrivals generalizing thread with
  | nil => rfl
  | cons arrival rest ih =>
    have tracked : (processPacket thread arrival).tracking = thread.tracking.track arrival.frame :=
      processPacket_tracking live.running
    rw [List.foldl_cons, handledFrames]
    by_cases known : Recognised arrival.frame.headers.hrzr
    · rw [if_pos known, ih (processPacket_recorded live known).1, tracked]
      rfl
    · obtain ⟨thrown, stopped⟩ := processPacket_unknown live.running known
      rw [if_neg known,
        Transition.foldl_stopped (fun _ => processPacket_stopped) (by rw [stopped]; rfl), tracked]
      rfl

/-- The thread counts exactly the frames that it comes to handle of those it receives. -/
theorem dumpThread_handledFrames (live : Live thread) (going : thread.quit = false)
    (bursts : List DumpBurst) : (dumpThread thread bursts).tracking =
      thread.tracking.trackAll (handledFrames (received thread.begin_ bursts)) := by
  induction bursts generalizing thread with
  | nil => rfl
  | cons burst rest ih =>
    have tracked : (processBurst thread burst).tracking =
        thread.tracking.trackAll (handledFrames burst.val) := foldl_tracking live burst.val
    rw [dumpThread_burst live going, received, receivedBursts]
    by_cases known : ∀ arrival ∈ burst.val, Recognised arrival.frame.headers.hrzr
    · obtain ⟨after, began, ended⟩ := foldl_live live known
      split
      · rename_i due
        have ends : (processBurst thread burst).quit = true := ended.mpr (.inr due)
        rw [List.flatMap_singleton, dumpThread_ended (.inl ends), tracked]
      · rename_i early
        have goes : (processBurst thread burst).quit = false := by
          rw [← Bool.not_eq_true, processBurst, ended, going]
          simpa using early
        have later := @ih (processBurst thread burst) after goes
        have same : (processBurst thread burst).begin_ = thread.begin_ := began
        rw [later, tracked, same, List.flatMap_cons, handledFrames_append _ known,
          Tracking.trackAll, Tracking.trackAll, Tracking.trackAll, List.foldl_append]
        rfl
    · simp only [not_forall] at known
      obtain ⟨first, inside, strange⟩ := known
      obtain ⟨thrown, stopped⟩ := foldl_escapes live inside strange
      have stops : (processBurst thread burst).stopped.isSome = true := by
        rw [processBurst, stopped]
        rfl
      rw [dumpThread_ended (.inr stops), tracked]
      split
      · rw [List.flatMap_singleton]
      · rw [List.flatMap_cons,
          handledFrames_append_of_unknown _ ⟨first, inside, strange⟩]

/-! ## No list runs empty -/

/-- What a writing block finds after a frame, and what it leaves. -/
structure Drains (begin_ : Nat) (before : DumpThread) (arrival : Arrival) : Prop where
  drained : ∃ lines payload,
    drain (collect (before.counted arrival.frame) arrival.frame).hrzrHeader
        (collect (before.counted arrival.frame) arrival.frame).hrzrPayload
        (collect (before.counted arrival.frame) arrival.frame).hrzrMeta =
      .ok (lines, payload, [])
  headers : Due begin_ arrival.clock → (processPacket before arrival).hrzrHeader = []
  meta_ : Due begin_ arrival.clock → (processPacket before arrival).hrzrMeta = []

theorem Live.drains (live : Live thread) (recognised : Recognised arrival.frame.headers.hrzr) :
    Drains thread.begin_ thread arrival := by
  have taken := live_taken live recognised
  have drained := drain_ok taken.stocked.recognised taken.stocked.payload
    (Nat.le_of_eq taken.stocked.meta_)
  rw [taken.stocked.meta_, List.drop_length] at drained
  refine ⟨⟨_, _, drained⟩, fun due => ?_, fun due => ?_⟩
  · rw [processPacket_due live recognised due, writeBlock_ok taken.stocked]
  · rw [processPacket_due live recognised due, writeBlock_ok taken.stocked]

theorem mem_received {begin_ : Nat} {bursts : List DumpBurst} {arrival : Arrival}
    (member : arrival ∈ received begin_ bursts) : ∃ burst ∈ bursts, arrival ∈ burst.val :=
  List.mem_flatMap.mp ((received_initial begin_ bursts).subset member)

/-- Whatever recognised frames come at whatever times, no writing block pops from an empty
list, and each one leaves neither headers nor metadata behind. -/
theorem drain_never_starves (begin_ : Nat) (totals : Totals) (bursts : List DumpBurst)
    (recognised : ∀ arrival ∈ received begin_ bursts, Recognised arrival.frame.headers.hrzr) :
    (dumpThread (start begin_ totals) bursts).stopped = none ∧
      dumpThread (start begin_ totals) bursts =
        (received begin_ bursts).foldl processPacket (start begin_ totals) ∧
      ∀ front arrival, front ++ [arrival] <+: received begin_ bursts →
        Drains begin_ (front.foldl processPacket (start begin_ totals)) arrival := by
  have live := live_start begin_ totals
  have flat := dumpThread_received live rfl recognised
  refine ⟨?_, flat, ?_⟩
  · rw [flat]
    exact (foldl_live live recognised).1.running
  · intro front arrival part
    obtain ⟨alive, began, -⟩ := foldl_live live fun earlier member =>
      recognised earlier (part.subset (List.mem_append_left _ member))
    have known := recognised arrival (part.subset (List.mem_append_right _ List.mem_cons_self))
    have drains := alive.drains known
    rwa [began] at drains

/-- One burst of METADATA frames, the first one early and two after three seconds. -/
def metadataBurst : DumpBurst where
  val := [1, 3000000000, 3000000001].map fun clock => ⟨⟨94, fun _ => 0x50⟩, clock⟩
  property := by decide

theorem drain_never_starves_metadata :
    (dumpThread (start 0 ⟨0, 0⟩) [metadataBurst]).stopped = none ∧
      dumpThread (start 0 ⟨0, 0⟩) [metadataBurst] =
        (received 0 [metadataBurst]).foldl processPacket (start 0 ⟨0, 0⟩) ∧
      ∀ front arrival, front ++ [arrival] <+: received 0 [metadataBurst] →
        Drains 0 (front.foldl processPacket (start 0 ⟨0, 0⟩)) arrival := by
  refine drain_never_starves 0 ⟨0, 0⟩ [metadataBurst] fun arrival member => ?_
  obtain ⟨burst, among, inside⟩ := mem_received member
  obtain rfl := List.mem_singleton.mp among
  obtain ⟨clock, -, rfl⟩ := List.mem_map.mp inside
  have known : getControlFromHeader (ByteMemory.load64 (fun _ => 0x50) 42) = .ok .metadata := by
    decide
  exact ⟨.metadata, known⟩

end JerryDriver.DumpThread
