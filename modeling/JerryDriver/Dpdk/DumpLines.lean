import JerryDriver.Dpdk.DumpFile
import JerryDriver.Library.DigitText

/-! Whose words the lines of `hrzr_samples.txt` carry. Every frame that is not METADATA
puts 366 words into the payload list, but only the lines of DATA and DATA_END_OF_BURST
frames take words out of it, so any other frame leaves its words to a later line. -/
namespace JerryDriver.DumpThread
open HrzrHeaderParser Definitions

def HasSamples (m : Mbuf) : Prop :=
  getControlFromHeader m.headers.hrzr = .ok .data ∨
    getControlFromHeader m.headers.hrzr = .ok .dataEndOfBurst

def IsMetadata (m : Mbuf) : Prop := getControlFromHeader m.headers.hrzr = .ok .metadata

instance (m : Mbuf) : Decidable (HasSamples m) := inferInstanceAs (Decidable (_ ∨ _))

instance (m : Mbuf) : Decidable (IsMetadata m) := inferInstanceAs (Decidable (_ = _))

def samplesOf (m : Mbuf) : List UInt32 := wordsAt m samplesPerPacket

def metadataOf (m : Mbuf) : List UInt32 := wordsAt m 10

/-- A line that begins with the header of a frame continues with words. -/
def Continues (m : Mbuf) (words : List UInt32) (line : String) : Prop :=
  (hexField 16 m.headers.hrzr.toNat ++ hexWords words).toList <+: line.toList

/-- The line of a frame carries the frame's own words. -/
structure OwnWords (m : Mbuf) (line : String) : Prop where
  samples : HasSamples m → Continues m (samplesOf m) line
  metadata : IsMetadata m → Continues m (metadataOf m) line

/-- The received frames by their lines: on files that were truncated since, on the last
file, and not written yet. -/
structure Ledger where
  earlier : List Mbuf
  written : List Mbuf
  pending : List Mbuf

namespace Ledger

def record (begin_ : Nat) (ledger : Ledger) (arrival : Arrival) : Ledger :=
  let collected := ledger.pending ++ [arrival.frame]
  if Due begin_ arrival.clock then ⟨ledger.earlier ++ ledger.written, collected, []⟩
  else { ledger with pending := collected }

def ofArrivals (begin_ : Nat) (arrivals : List Arrival) : Ledger :=
  arrivals.foldl (record begin_) ⟨[], [], []⟩

end Ledger

/-- What frames put into the payload list, a block of words each. -/
def pushed (frames : List Mbuf) : List (List UInt32) :=
  (frames.filter (¬ IsMetadata ·)).map samplesOf

/-- What the lines of frames are to take out of it. -/
def wanted (frames : List Mbuf) : List (List UInt32) :=
  (frames.filter (HasSamples ·)).map samplesOf

/-- The blocks that the last file's DATA and DATA_END_OF_BURST frames hold are the ones
next in the payload list after as many as earlier lines have taken. -/
def Aligned (ledger : Ledger) : Prop :=
  wanted ledger.written <+:
    (pushed (ledger.earlier ++ ledger.written)).drop (wanted ledger.earlier).length

variable {m : Mbuf} {frames : List Mbuf}

theorem HasSamples.not_metadata (samples : HasSamples m) : ¬ IsMetadata m := by
  intro metadata
  unfold HasSamples at samples
  unfold IsMetadata at metadata
  simp only [metadata, Except.ok.injEq, reduceCtorEq, or_self] at samples

theorem payloadWords_eq (m : Mbuf) :
    payloadWords m.headers.hrzr = if HasSamples m then samplesPerPacket else 0 := by
  by_cases samples : HasSamples m
  · rw [if_pos samples, payloadWords]
    rcases samples with data | endOfBurst
    · simp only [data]
      rfl
    · simp only [endOfBurst]
      rfl
  · rw [if_neg samples, payloadWords]
    split
    · rename_i type control
      refine if_neg fun valid => samples ?_
      rcases (isValidPacketType_iff type).mp valid with rfl | rfl
      · exact .inl control
      · exact .inr control
    · rfl

theorem length_samplesOf (m : Mbuf) : (samplesOf m).length = samplesPerPacket := by
  rw [samplesOf, wordsAt, List.length_map, List.length_range]

theorem metaWords_eq (metadata : IsMetadata m) :
    metaWords m.headers.hrzr = (metadataOf m).length := by
  rw [metadataOf, wordsAt, List.length_map, List.length_range]
  exact if_pos metadata

theorem wanted_cons (m : Mbuf) (rest : List Mbuf) :
    wanted (m :: rest) = if HasSamples m then samplesOf m :: wanted rest else wanted rest := by
  rw [wanted, List.filter_cons]
  simp only [decide_eq_true_eq]
  split <;> rfl

/-! ## Texts of words -/

theorem hexField_inj {width first second : Nat} :
    hexField width first = hexField width second ↔ first = second := by
  rw [hexField, hexField, String.ofList_inj]
  exact DigitText.leftpad_toDigits_inj (by decide) (by decide)

theorem toList_hexWords_cons (word : UInt32) (rest : List UInt32) :
    (hexWords (word :: rest)).toList = (hexField 8 word.toNat).toList ++ (hexWords rest).toList :=
  String.toList_append

theorem length_wordField (word : UInt32) : (hexField 8 word.toNat).toList.length = 8 :=
  length_hexField (by decide) word.toNat_lt

theorem length_hexWords (words : List UInt32) :
    (hexWords words).toList.length = 8 * words.length := by
  induction words with
  | nil => rfl
  | cons word rest ih =>
    rw [toList_hexWords_cons, List.length_append, length_wordField, ih, List.length_cons]
    omega

theorem hexWords_injective {first second : List UInt32}
    (same : (hexWords first).toList = (hexWords second).toList) : first = second := by
  have lengths := congrArg List.length same
  rw [length_hexWords, length_hexWords] at lengths
  induction first generalizing second with
  | nil =>
    cases second with
    | nil => rfl
    | cons other later => simp at lengths
  | cons word rest ih =>
    cases second with
    | nil => simp at lengths
    | cons other later =>
      -- All fields are 8 characters wide, so the first ones can be split off.
      have widths := (length_wordField word).trans (length_wordField other).symm
      rw [toList_hexWords_cons, toList_hexWords_cons] at same
      obtain ⟨fields, texts⟩ := List.append_inj same widths
      rw [String.toList_inj, hexField_inj, UInt32.toNat_inj] at fields
      simp only [List.length_cons] at lengths
      rw [fields, ih texts (by omega)]

/-- A line that consists of a header and as many words continues with these alone. -/
theorem continues_iff {words taken : List UInt32} (same : words.length = taken.length) :
    Continues m words (hexField 16 m.headers.hrzr.toNat ++ hexWords taken) ↔ words = taken := by
  rw [Continues, String.toList_append, String.toList_append, List.prefix_append_right_inj]
  constructor
  · intro part
    exact hexWords_injective (part.eq_of_length (by rw [length_hexWords, length_hexWords, same]))
  · rintro rfl
    exact List.prefix_refl _

/-! ## The lines of one block -/

theorem length_wanted_le (frames : List Mbuf) :
    (wanted frames).length ≤ (pushed frames).length := by
  rw [wanted, pushed, List.length_map, List.length_map]
  refine (List.monotone_filter_right frames fun m samples => ?_).length_le
  simpa using HasSamples.not_metadata (by simpa using samples)

theorem length_pushed {frames : List Mbuf} {block : List UInt32} (member : block ∈ pushed frames) :
    block.length = samplesPerPacket := by
  obtain ⟨m, -, rfl⟩ := List.mem_map.mp member
  exact length_samplesOf m

theorem lineOf_samples (samples : HasSamples m) {block rest meta_ : List UInt32}
    (long : block.length = samplesPerPacket) :
    OwnWords m (lineOf m.headers.hrzr (block ++ rest) meta_) ↔ samplesOf m = block := by
  have words : metaWords m.headers.hrzr = 0 := if_neg samples.not_metadata
  have empty : hexWords [] = "" := rfl
  rw [lineOf, payloadWords_eq, if_pos samples, words, ← long, List.take_left, List.take_zero,
    empty, String.append_empty, ← @continues_iff m _ block ((length_samplesOf m).trans long.symm)]
  constructor
  · exact fun own => own.samples samples
  · exact fun held => ⟨fun _ => held, fun metadata => absurd metadata samples.not_metadata⟩

theorem lineOf_metadata (metadata : IsMetadata m) (payload rest : List UInt32) :
    OwnWords m (lineOf m.headers.hrzr payload (metadataOf m ++ rest)) := by
  have other : ¬ HasSamples m := fun samples => samples.not_metadata metadata
  have empty : hexWords [] = "" := rfl
  rw [lineOf, payloadWords_eq, if_neg other, metaWords_eq metadata, List.take_left,
    List.take_zero, empty, String.append_empty]
  exact ⟨fun samples => absurd samples other, fun _ => (continues_iff rfl).mpr rfl⟩

/-- Lines whose frames find blocks of words in the payload list take one block each, in
order, so they carry their own words if those blocks are the frames' own. -/
theorem linesOf_own_iff {blocks : List (List UInt32)}
    (whole : ∀ block ∈ blocks, block.length = samplesPerPacket)
    (enough : (wanted frames).length ≤ blocks.length) :
    List.Forall₂ OwnWords frames (linesOf (frames.map (·.headers.hrzr)) blocks.flatten
        ((frames.filter (IsMetadata ·)).flatMap metadataOf)) ↔
      wanted frames <+: blocks := by
  induction frames generalizing blocks with
  | nil => exact iff_of_true .nil List.nil_prefix
  | cons m rest ih =>
    rw [List.map_cons, linesOf, List.forall₂_cons]
    by_cases samples : HasSamples m
    · have other := samples.not_metadata
      have words : metaWords m.headers.hrzr = 0 := if_neg other
      rw [wanted_cons, if_pos samples] at enough ⊢
      cases blocks with
      | nil => contradiction
      | cons block later =>
        have long := whole block List.mem_cons_self
        have after := @ih later (fun other member => whole other (List.mem_cons_of_mem _ member))
          (Nat.le_of_succ_le_succ enough)
        rw [List.flatten_cons, lineOf_samples samples long, List.cons_prefix_cons, ← after,
          payloadWords_eq, if_pos samples, ← long, List.drop_left, words, List.drop_zero,
          List.filter_cons_of_neg (by simpa using other)]
    -- Any other line leaves the payload list as it is.
    · rw [wanted_cons, if_neg samples] at enough ⊢
      rw [payloadWords_eq, if_neg samples, List.drop_zero, ← ih whole enough]
      by_cases metadata : IsMetadata m
      · rw [List.filter_cons_of_pos (by simpa using metadata), List.flatMap_cons,
          metaWords_eq metadata, List.drop_left]
        exact and_iff_right (lineOf_metadata metadata _ _)
      · have words : metaWords m.headers.hrzr = 0 := if_neg metadata
        rw [List.filter_cons_of_neg (by simpa using metadata), words, List.drop_zero]
        exact and_iff_right ⟨fun held => absurd held samples, fun held => absurd held metadata⟩

/-! ## Whole runs -/

theorem pushed_append (first second : List Mbuf) :
    pushed (first ++ second) = pushed first ++ pushed second := by
  rw [pushed, List.filter_append, List.map_append, pushed, pushed]

theorem wanted_append (first second : List Mbuf) :
    wanted (first ++ second) = wanted first ++ wanted second := by
  rw [wanted, List.filter_append, List.map_append, wanted, wanted]

theorem sum_payloadWords (frames : List Mbuf) :
    ((frames.map (·.headers.hrzr)).map payloadWords).sum =
      samplesPerPacket * (wanted frames).length := by
  induction frames with
  | nil => rfl
  | cons m rest ih =>
    rw [List.map_cons, List.map_cons, List.sum_cons, ih, payloadWords_eq, wanted_cons]
    split
    · rw [List.length_cons, Nat.mul_succ, Nat.add_comm]
    · rw [Nat.zero_add]

private theorem drop_flatten {α : Type} {width : Nat} {blocks : List (List α)}
    (whole : ∀ block ∈ blocks, block.length = width) (count : Nat) :
    blocks.flatten.drop (width * count) = (blocks.drop count).flatten := by
  induction blocks generalizing count with
  | nil => simp
  | cons block rest ih =>
    cases count with
    | zero => rfl
    | succ count =>
      have later := @ih (fun other member => whole other (List.mem_cons_of_mem _ member)) count
      rw [List.flatten_cons, Nat.mul_succ, Nat.add_comm, ← whole block List.mem_cons_self,
        List.drop_length_add_append, whole block List.mem_cons_self, later, List.drop_succ_cons]

/-- What the lists and the file of the thread hold, by the received frames. -/
structure Represents (ledger : Ledger) (thread : DumpThread) : Prop where
  headers : thread.hrzrHeader = ledger.pending.map (·.headers.hrzr)
  payload : thread.hrzrPayload =
    ((pushed (ledger.earlier ++ ledger.written ++ ledger.pending)).drop
      (wanted (ledger.earlier ++ ledger.written)).length).flatten
  meta_ : thread.hrzrMeta = (ledger.pending.filter (IsMetadata ·)).flatMap metadataOf
  file : ∀ lines, thread.file = some lines → lines =
    linesOf (ledger.written.map (·.headers.hrzr))
      ((pushed (ledger.earlier ++ ledger.written)).drop (wanted ledger.earlier).length).flatten
      ((ledger.written.filter (IsMetadata ·)).flatMap metadataOf)

variable {thread : DumpThread} {ledger : Ledger} {arrival : Arrival} {arrivals : List Arrival}

theorem represents_start (begin_ : Nat) (totals : Totals) :
    Represents ⟨[], [], []⟩ (start begin_ totals) where
  headers := rfl
  payload := rfl
  meta_ := rfl
  file lines written := by cases written

theorem collect_words (recognised : Recognised m.headers.hrzr) :
    (collect thread m).hrzrPayload = thread.hrzrPayload ++ (pushed [m]).flatten ∧
      (collect thread m).hrzrMeta =
        thread.hrzrMeta ++ ([m].filter (IsMetadata ·)).flatMap metadataOf := by
  obtain ⟨type, control⟩ := recognised
  simp only [collect, control]
  by_cases metadata : type = .metadata
  · have isMetadata : IsMetadata m := by
      rw [IsMetadata, control, metadata]
    rw [if_pos metadata, pushed, List.filter_cons_of_neg (by simpa using isMetadata),
      List.filter_cons_of_pos (by simpa using isMetadata)]
    simp [metadataOf]
  · have other : ¬ IsMetadata m := by
      rw [IsMetadata, control]
      exact fun same => metadata (Except.ok.inj same)
    rw [if_neg metadata, pushed, List.filter_cons_of_pos (by simpa using other),
      List.filter_cons_of_neg (by simpa using other)]
    simp [samplesOf]

theorem Represents.collect (held : Represents ledger thread)
    (recognised : Recognised m.headers.hrzr) :
    Represents { ledger with pending := ledger.pending ++ [m] }
      (collect (thread.counted m) m) := by
  obtain ⟨payload, meta_⟩ := @collect_words m (thread.counted m) recognised
  obtain ⟨-, file, -, -⟩ := @taken_spares thread m recognised
  constructor
  · rw [collect_headers, List.map_append]
    exact congrArg (· ++ [m.headers.hrzr]) held.headers
  · have enough := length_wanted_le (ledger.earlier ++ ledger.written)
    have within : (wanted (ledger.earlier ++ ledger.written)).length ≤
        (pushed (ledger.earlier ++ ledger.written ++ ledger.pending)).length := by
      rw [pushed_append, List.length_append]
      exact enough.trans (Nat.le_add_right _ _)
    rw [payload, ← List.append_assoc, pushed_append _ [m], List.drop_append_of_le_length within,
      List.flatten_append]
    exact congrArg (· ++ (pushed [m]).flatten) held.payload
  · rw [meta_, List.filter_append, List.flatMap_append]
    exact congrArg (· ++ ([m].filter (IsMetadata ·)).flatMap metadataOf) held.meta_
  · intro lines written
    exact held.file lines (file.symm.trans written)

theorem Represents.writeBlock (held : Represents ledger thread) (stocked : Stocked thread) :
    Represents ⟨ledger.earlier ++ ledger.written, ledger.pending, []⟩ (writeBlock thread) := by
  rw [writeBlock_ok stocked]
  constructor
  · rfl
  · have whole : ∀ block ∈ (pushed (ledger.earlier ++ ledger.written ++ ledger.pending)).drop
        (wanted (ledger.earlier ++ ledger.written)).length, block.length = samplesPerPacket :=
      fun block member => length_pushed (List.mem_of_mem_drop member)
    simp only [held.headers, held.payload, sum_payloadWords, drop_flatten whole, List.drop_drop,
      List.append_nil, wanted_append _ ledger.pending, List.length_append]
  · rfl
  · intro lines written
    rw [← Option.some.inj written, held.headers, held.payload, held.meta_]

theorem Represents.processPacket (live : Live thread) (held : Represents ledger thread)
    (recognised : Recognised arrival.frame.headers.hrzr) :
    Represents (ledger.record thread.begin_ arrival) (processPacket thread arrival) := by
  have taken := held.collect recognised
  by_cases due : Due thread.begin_ arrival.clock
  · have block := taken.writeBlock (live_taken live recognised).stocked
    rw [processPacket_due live recognised due, Ledger.record, if_pos due]
    exact ⟨block.headers, block.payload, block.meta_, block.file⟩
  · rw [processPacket_early live recognised due, Ledger.record, if_neg due]
    exact ⟨taken.headers, taken.payload, taken.meta_, taken.file⟩

/-- The ledger follows the thread frame by frame. -/
theorem foldl_represents (live : Live thread) (held : Represents ledger thread)
    (recognised : ∀ arrival ∈ arrivals, Recognised arrival.frame.headers.hrzr) :
    Represents (arrivals.foldl (Ledger.record thread.begin_) ledger)
      (arrivals.foldl processPacket thread) := by
  induction arrivals generalizing thread ledger with
  | nil => exact held
  | cons arrival rest ih =>
    have known := recognised arrival List.mem_cons_self
    obtain ⟨alive, -, began, -⟩ := processPacket_recorded live known
    have later := ih alive (held.processPacket live known)
      fun other member => recognised other (List.mem_cons_of_mem _ member)
    rwa [began] at later

theorem foldl_own_iff {begin_ : Nat} {totals : Totals} {lines : List String}
    (recognised : ∀ arrival ∈ arrivals, Recognised arrival.frame.headers.hrzr)
    (file : (arrivals.foldl processPacket (start begin_ totals)).file = some lines) :
    List.Forall₂ OwnWords (Ledger.ofArrivals begin_ arrivals).written lines ↔
      Aligned (Ledger.ofArrivals begin_ arrivals) := by
  have held : Represents (Ledger.ofArrivals begin_ arrivals)
      (arrivals.foldl processPacket (start begin_ totals)) :=
    foldl_represents (live_start begin_ totals) (represents_start begin_ totals) recognised
  rw [held.file lines file, Aligned]
  refine linesOf_own_iff (fun block member => length_pushed (List.mem_of_mem_drop member)) ?_
  have earlier := length_wanted_le (Ledger.ofArrivals begin_ arrivals).earlier
  have written := length_wanted_le (Ledger.ofArrivals begin_ arrivals).written
  rw [List.length_drop, pushed_append, List.length_append]
  omega

/-- Frames of the three types that lines take words for keep the lists aligned. -/
theorem aligned_of_samples
    (only : ∀ m ∈ ledger.earlier ++ ledger.written, HasSamples m ∨ IsMetadata m) :
    Aligned ledger := by
  have same (frames : List Mbuf) (among : ∀ m ∈ frames, HasSamples m ∨ IsMetadata m) :
      wanted frames = pushed frames := by
    refine congrArg (List.map samplesOf) (List.filter_congr fun m member => ?_)
    rcases among m member with samples | metadata
    · simp [samples, samples.not_metadata]
    · have other : ¬ HasSamples m := fun samples => samples.not_metadata metadata
      simp [metadata, other]
  simp only [Aligned, ← same _ only, wanted_append, List.drop_left, List.prefix_refl]

/-- Up to the first writing, all frames are on the file. -/
theorem ofArrivals_first {begin_ : Nat} {front : List Arrival} {last : Arrival}
    (early : ∀ arrival ∈ front, ¬ Due begin_ arrival.clock) (due : Due begin_ last.clock) :
    Ledger.ofArrivals begin_ (front ++ [last]) = ⟨[], (front ++ [last]).map Arrival.frame, []⟩ := by
  have collects (pending : List Mbuf) : front.foldl (Ledger.record begin_) ⟨[], [], pending⟩ =
      ⟨[], [], pending ++ front.map Arrival.frame⟩ := by
    induction front generalizing pending with
    | nil => rw [List.foldl_nil, List.map_nil, List.append_nil]
    | cons arrival rest ih =>
      have later := ih fun other member => early other (List.mem_cons_of_mem _ member)
      rw [List.foldl_cons, Ledger.record, if_neg (early arrival List.mem_cons_self), later,
        List.map_cons, List.append_assoc, List.singleton_append]
  rw [Ledger.ofArrivals, List.foldl_append, collects, List.foldl_cons, List.foldl_nil,
    Ledger.record, if_pos due, List.map_append]
  rfl

/-- The lines of the file carry their own frames' words exactly when, for each of its DATA
and DATA_END_OF_BURST frames, the frame of the same number among all that are not METADATA
has the same words. -/
theorem dump_lines_own_iff (begin_ : Nat) (totals : Totals) (bursts : List DumpBurst)
    (recognised : ∀ arrival ∈ received begin_ bursts, Recognised arrival.frame.headers.hrzr)
    {lines : List String}
    (file : (dumpThread (start begin_ totals) bursts).file = some lines) :
    List.Forall₂ OwnWords (Ledger.ofArrivals begin_ (received begin_ bursts)).written lines ↔
      Aligned (Ledger.ofArrivals begin_ (received begin_ bursts)) := by
  have flat : dumpThread (start begin_ totals) bursts =
      (received begin_ bursts).foldl processPacket (start begin_ totals) :=
    dumpThread_received (live_start begin_ totals) rfl recognised
  rw [flat] at file
  exact foldl_own_iff recognised file

/-- Two frames, all bytes of each with one value, the second one after three seconds. -/
def twoFrames (first second : UInt8) : DumpBurst where
  val := [⟨⟨1514, fun _ => first⟩, 1⟩, ⟨⟨1514, fun _ => second⟩, 3000000000⟩]
  property := Nat.le_add_left 2 30

theorem dumped_twoFrames {first second : UInt8}
    (firstKnown : Recognised (Mbuf.headers ⟨1514, fun _ => first⟩).hrzr)
    (secondKnown : Recognised (Mbuf.headers ⟨1514, fun _ => second⟩).hrzr) :
    (∀ arrival ∈ received 0 [twoFrames first second], Recognised arrival.frame.headers.hrzr) ∧
      Ledger.ofArrivals 0 (received 0 [twoFrames first second]) =
        ⟨[], [⟨1514, fun _ => first⟩, ⟨1514, fun _ => second⟩], []⟩ ∧
      ∃ lines, (dumpThread (start 0 ⟨0, 0⟩) [twoFrames first second]).file = some lines := by
  have all : ∀ arrival ∈ received 0 [twoFrames first second],
      Recognised arrival.frame.headers.hrzr := by
    rw [received_single]
    exact List.forall_mem_cons.mpr ⟨firstKnown, List.forall_mem_singleton.mpr secondKnown⟩
  have early : ¬ Due 0 1 := by decide
  have due : Due 0 3000000000 := by decide
  refine ⟨all, ?_, ?_⟩
  · rw [received_single]
    exact @ofArrivals_first 0 [⟨⟨1514, fun _ => first⟩, 1⟩] ⟨⟨1514, fun _ => second⟩, 3000000000⟩
      (List.forall_mem_singleton.mpr early) due
  · rw [dumpThread_received (live_start 0 ⟨0, 0⟩) rfl all]
    obtain ⟨-, payload, meta_, file⟩ := @foldl_due (start 0 ⟨0, 0⟩)
      [⟨⟨1514, fun _ => first⟩, 1⟩] (live_start 0 ⟨0, 0⟩)
      (List.forall_mem_singleton.mpr firstKnown) ⟨⟨1514, fun _ => second⟩, 3000000000⟩
      secondKnown due
    rw [received_single]
    exact ⟨_, file⟩

theorem dump_lines_own_metadata_data :
    ∃ lines, (dumpThread (start 0 ⟨0, 0⟩) [twoFrames 0x50 0]).file = some lines ∧
      List.Forall₂ OwnWords [⟨1514, fun _ => 0x50⟩, ⟨1514, fun _ => 0⟩] lines := by
  obtain ⟨known, ledger, lines, file⟩ := @dumped_twoFrames 0x50 0 ⟨.metadata, by decide⟩
    ⟨.data, by decide⟩
  have own := dump_lines_own_iff 0 ⟨0, 0⟩ [twoFrames 0x50 0] known file
  rw [ledger] at own
  refine ⟨lines, file, own.mpr (aligned_of_samples ?_)⟩
  exact List.forall_mem_cons.mpr
    ⟨.inr (by decide), List.forall_mem_singleton.mpr (.inl (by decide))⟩

/-- A FLOW_CONTROL frame before a DATA frame: the line of the DATA frame carries the words
of the FLOW_CONTROL frame. -/
theorem flow_control_shifts_words :
    (∀ arrival ∈ received 0 [twoFrames 0x40 0], Recognised arrival.frame.headers.hrzr) ∧
      ∃ lines, (dumpThread (start 0 ⟨0, 0⟩) [twoFrames 0x40 0]).file = some lines ∧
        ¬ List.Forall₂ OwnWords [⟨1514, fun _ => 0x40⟩, ⟨1514, fun _ => 0⟩] lines := by
  obtain ⟨known, ledger, lines, file⟩ := @dumped_twoFrames 0x40 0 ⟨.flowControl, by decide⟩
    ⟨.data, by decide⟩
  refine ⟨known, lines, file, fun own => ?_⟩
  rw [dumpThread_received (live_start 0 ⟨0, 0⟩) rfl known] at file
  have aligned := (foldl_own_iff known file).mp (by rwa [ledger])
  rw [ledger] at aligned
  change [samplesOf ⟨1514, fun _ => 0⟩] <+:
    [samplesOf ⟨1514, fun _ => 0x40⟩, samplesOf ⟨1514, fun _ => 0⟩] at aligned
  have words := (List.cons_prefix_cons.mp aligned).1
  rw [samplesOf, samplesOf, wordsAt, wordsAt, List.map_inj_left] at words
  exact absurd (words 0 (List.mem_range.mpr (by decide))) (by decide)

end JerryDriver.DumpThread
