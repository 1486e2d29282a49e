import JerryDriver.Dpdk.DumpLines
import JerryDriver.Hrzr.MetadataParser

/-! Reading `hrzr_samples.txt` back. A line is a header in 16 digits and words in 8 digits
each, so a reader that knows nothing of the run finds the headers and words again; which
words a line holds it learns from the header. -/
namespace JerryDriver.DumpThread
open HrzrHeaderParser Definitions

structure Record where
  header : UInt64
  words : List UInt32
  deriving DecidableEq

/-- The characters that the lines become, `std::endl` behind each. -/
def contents (lines : List String) : List Char := DigitText.text (lines.map String.toList)

def readWords : List Char → List UInt32
  | a :: b :: c :: d :: e :: f :: g :: h :: rest =>
    UInt32.ofNat (DigitText.value 16 [a, b, c, d, e, f, g, h]) :: readWords rest
  | _ => []

def readRecord (line : List Char) : Record where
  header := UInt64.ofNat (DigitText.value 16 (line.take 16))
  words := readWords (line.drop 16)

def readFile (text : List Char) : List Record := (DigitText.linesOfText text).map readRecord

def Record.HasSamples (record : Record) : Prop :=
  getControlFromHeader record.header = .ok .data ∨
    getControlFromHeader record.header = .ok .dataEndOfBurst

def Record.IsMetadata (record : Record) : Prop :=
  getControlFromHeader record.header = .ok .metadata

instance (record : Record) : Decidable record.HasSamples := inferInstanceAs (Decidable (_ ∨ _))

instance (record : Record) : Decidable record.IsMetadata := inferInstanceAs (Decidable (_ = _))

variable {header : UInt64} {payload meta_ : List UInt32} {m : Mbuf} {frames : List Mbuf}
  {blocks : List (List UInt32)}

theorem value_hexField (width n : Nat) : DigitText.value 16 (hexField width n).toList = n := by
  rw [hexField, String.toList_ofList, DigitText.value_leftpad,
    DigitText.value_toDigits (by decide) (by decide)]

theorem readWords_append {field : List Char} (eight : field.length = 8) (rest : List Char) :
    readWords (field ++ rest) = UInt32.ofNat (DigitText.value 16 field) :: readWords rest := by
  match field, eight with
  | [a, b, c, d, e, f, g, h], _ => rfl

theorem readWords_hexWords (words : List UInt32) : readWords (hexWords words).toList = words := by
  induction words with
  | nil => rfl
  | cons word rest ih =>
    rw [toList_hexWords_cons, readWords_append (length_wordField word), value_hexField,
      UInt32.ofNat_toNat, ih]

theorem hexWords_append (first second : List UInt32) :
    (hexWords (first ++ second)).toList = (hexWords first).toList ++ (hexWords second).toList := by
  induction first with
  | nil => rfl
  | cons word rest ih =>
    rw [List.cons_append, toList_hexWords_cons, toList_hexWords_cons, ih, List.append_assoc]

/-- A line is read as what it was made of. -/
theorem readRecord_lineOf : readRecord (lineOf header payload meta_).toList =
    ⟨header, payload.take (payloadWords header) ++ meta_.take (metaWords header)⟩ := by
  have width : (hexField 16 header.toNat).toList.length = 16 :=
    length_hexField (by decide) header.toNat_lt
  rw [lineOf, String.toList_append, String.toList_append, List.append_assoc, ← hexWords_append,
    readRecord, List.take_left' width, List.drop_left' width, value_hexField,
    UInt64.ofNat_toNat, readWords_hexWords]

theorem newline_not_mem_hexField (width n : Nat) : '\n' ∉ (hexField width n).toList := by
  rw [hexField, String.toList_ofList]
  exact DigitText.newline_not_mem_leftpad (by decide) (by decide) n

theorem newline_not_mem_hexWords (words : List UInt32) : '\n' ∉ (hexWords words).toList := by
  induction words with
  | nil => exact List.not_mem_nil
  | cons word rest ih =>
    rw [toList_hexWords_cons, List.mem_append]
    exact not_or.mpr ⟨newline_not_mem_hexField 8 _, ih⟩

theorem linesOf_unbroken (headers : List UInt64) (payload meta_ : List UInt32) :
    ∀ line ∈ (linesOf headers payload meta_).map String.toList, '\n' ∉ line := by
  induction headers generalizing payload meta_ with
  | nil => exact List.forall_mem_nil _
  | cons header rest ih =>
    refine List.forall_mem_cons.mpr ⟨?_, ih _ _⟩
    rw [lineOf, String.toList_append, String.toList_append, List.mem_append, List.mem_append]
    exact not_or.mpr ⟨not_or.mpr ⟨newline_not_mem_hexField 16 _, newline_not_mem_hexWords _⟩,
      newline_not_mem_hexWords _⟩

/-- The records of frames whose samples come from the blocks, in turn. -/
def recordsOf : List Mbuf → List (List UInt32) → List Record
  | [], _ => []
  | m :: rest, blocks =>
    if HasSamples m then ⟨m.headers.hrzr, blocks.headD []⟩ :: recordsOf rest blocks.tail
    else ⟨m.headers.hrzr, if IsMetadata m then metadataOf m else []⟩ :: recordsOf rest blocks

/-- The lines of a writing, read back. -/
theorem readFile_linesOf (whole : ∀ block ∈ blocks, block.length = samplesPerPacket)
    (enough : (wanted frames).length ≤ blocks.length) :
    readFile (contents (linesOf (frames.map (·.headers.hrzr)) blocks.flatten
        ((frames.filter (IsMetadata ·)).flatMap metadataOf))) = recordsOf frames blocks := by
  rw [readFile, contents, DigitText.linesOfText_text (linesOf_unbroken _ _ _), List.map_map]
  induction frames generalizing blocks with
  | nil => rfl
  | cons m rest ih =>
    rw [List.map_cons, linesOf, List.map_cons, recordsOf, Function.comp_apply, readRecord_lineOf]
    by_cases samples : HasSamples m
    · have other := samples.not_metadata
      have words : metaWords m.headers.hrzr = 0 := if_neg other
      rw [wanted_cons, if_pos samples] at enough
      cases blocks with
      | nil => contradiction
      | cons block later =>
        have long := whole block List.mem_cons_self
        have after := @ih later (fun other member => whole other (List.mem_cons_of_mem _ member))
          (Nat.le_of_succ_le_succ enough)
        rw [if_pos samples, List.flatten_cons, payloadWords_eq, if_pos samples, ← long,
          List.take_left, List.drop_left, words, List.take_zero, List.drop_zero, List.append_nil,
          List.filter_cons_of_neg (by simpa using other), after]
        rfl
    · rw [wanted_cons, if_neg samples] at enough
      rw [if_neg samples, payloadWords_eq, if_neg samples, List.drop_zero, List.take_zero,
        List.nil_append]
      by_cases metadata : IsMetadata m
      · rw [List.filter_cons_of_pos (by simpa using metadata), List.flatMap_cons,
          metaWords_eq metadata, List.take_left, List.drop_left, if_pos metadata, ih whole enough]
      · have words : metaWords m.headers.hrzr = 0 := if_neg metadata
        rw [List.filter_cons_of_neg (by simpa using metadata), words, List.take_zero,
          List.drop_zero, if_neg metadata, ih whole enough]

theorem recordsOf_headers (frames : List Mbuf) (blocks : List (List UInt32)) :
    (recordsOf frames blocks).map Record.header = frames.map (·.headers.hrzr) := by
  induction frames generalizing blocks with
  | nil => rfl
  | cons m rest ih =>
    rw [recordsOf]
    split
    · exact congrArg (m.headers.hrzr :: ·) (ih _)
    · exact congrArg (m.headers.hrzr :: ·) (ih _)

/-- The sample records take the blocks one after the other, none twice and none left out. -/
theorem recordsOf_samples (enough : (wanted frames).length ≤ blocks.length) :
    ((recordsOf frames blocks).filter (·.HasSamples)).map Record.words =
      blocks.take (wanted frames).length := by
  induction frames generalizing blocks with
  | nil => rfl
  | cons m rest ih =>
    rw [wanted_cons] at enough ⊢
    rw [recordsOf]
    by_cases samples : HasSamples m
    · simp only [if_pos samples] at enough ⊢
      have marked : (⟨m.headers.hrzr, blocks.headD []⟩ : Record).HasSamples := samples
      rw [List.filter_cons_of_pos (by simpa using marked)]
      cases blocks with
      | nil => contradiction
      | cons block later =>
        rw [List.map_cons, List.tail_cons, ih (Nat.le_of_succ_le_succ enough)]
        rfl
    · simp only [if_neg samples] at enough ⊢
      have unmarked : ¬ (⟨m.headers.hrzr, if IsMetadata m then metadataOf m else []⟩ :
        Record).HasSamples := samples
      rw [List.filter_cons_of_neg (by simpa using unmarked), ih enough]

theorem recordsOf_metadata (frames : List Mbuf) (blocks : List (List UInt32)) :
    ((recordsOf frames blocks).filter (·.IsMetadata)).map Record.words =
      (frames.filter (IsMetadata ·)).map metadataOf := by
  induction frames generalizing blocks with
  | nil => rfl
  | cons m rest ih =>
    have mark (words : List UInt32) :
        (⟨m.headers.hrzr, words⟩ : Record).IsMetadata ↔ IsMetadata m := Iff.rfl
    rw [recordsOf]
    by_cases metadata : IsMetadata m
    · have other : ¬ HasSamples m := fun samples => samples.not_metadata metadata
      rw [if_neg other, if_pos metadata, List.filter_cons_of_pos (by simpa [mark] using metadata),
        List.filter_cons_of_pos (by simpa using metadata), List.map_cons, List.map_cons, ih]
    · rw [List.filter_cons_of_neg (by simpa using metadata)]
      split
      · rw [List.filter_cons_of_neg (by simpa [mark] using metadata), ih]
      · rw [List.filter_cons_of_neg (by simpa [mark] using metadata), ih]

theorem recordsOf_other (frames : List Mbuf) (blocks : List (List UInt32)) :
    ∀ record ∈ recordsOf frames blocks, ¬ record.HasSamples → ¬ record.IsMetadata →
      record.words = [] := by
  induction frames generalizing blocks with
  | nil => exact List.forall_mem_nil _
  | cons m rest ih =>
    rw [recordsOf]
    split
    · rename_i samples
      exact List.forall_mem_cons.mpr ⟨fun other => absurd samples other, ih _⟩
    · exact List.forall_mem_cons.mpr ⟨fun _ other => if_neg other, ih _⟩

/-- What a reader of the file finds: the headers of the frames written, in order; with the
METADATA headers those frames' words; with the DATA and DATA_END_OF_BURST headers the next
blocks of words of the frames that are not METADATA, in order; with other headers nothing. -/
structure ReadsBack (ledger : Ledger) (records : List Record) : Prop where
  headers : records.map Record.header = ledger.written.map (·.headers.hrzr)
  samples : (records.filter (·.HasSamples)).map Record.words =
    ((pushed (ledger.earlier ++ ledger.written)).drop (wanted ledger.earlier).length).take
      (wanted ledger.written).length
  metadata : (records.filter (·.IsMetadata)).map Record.words =
    (ledger.written.filter (IsMetadata ·)).map metadataOf
  others : ∀ record ∈ records, ¬ record.HasSamples → ¬ record.IsMetadata → record.words = []

/-- The records of a file are those of its frames, of which none lacks a block. -/
theorem readFile_dumped {begin_ : Nat} {totals : Totals} {bursts : List DumpBurst}
    (recognised : ∀ arrival ∈ received begin_ bursts, Recognised arrival.frame.headers.hrzr)
    {lines : List String} (file : (dumpThread (start begin_ totals) bursts).file = some lines)
    {ledger : Ledger} (recorded : Ledger.ofArrivals begin_ (received begin_ bursts) = ledger) :
    (wanted ledger.written).length ≤
        ((pushed (ledger.earlier ++ ledger.written)).drop (wanted ledger.earlier).length).length ∧
      readFile (contents lines) = recordsOf ledger.written
        ((pushed (ledger.earlier ++ ledger.written)).drop (wanted ledger.earlier).length) := by
  rw [dumpThread_received (live_start begin_ totals) rfl recognised] at file
  have held : Represents ledger
      ((received begin_ bursts).foldl processPacket (start begin_ totals)) := by
    rw [← recorded]
    exact foldl_represents (live_start begin_ totals) (represents_start begin_ totals) recognised
  have whole : ∀ block ∈ (pushed (ledger.earlier ++ ledger.written)).drop
      (wanted ledger.earlier).length, block.length = samplesPerPacket :=
    fun block member => length_pushed (List.mem_of_mem_drop member)
  have enough : (wanted ledger.written).length ≤
      ((pushed (ledger.earlier ++ ledger.written)).drop (wanted ledger.earlier).length).length := by
    have earlier := length_wanted_le ledger.earlier
    have written := length_wanted_le ledger.written
    rw [List.length_drop, pushed_append, List.length_append]
    omega
  rw [held.file lines file, readFile_linesOf whole enough]
  exact ⟨enough, rfl⟩

theorem dump_file_read_back (begin_ : Nat) (totals : Totals) (bursts : List DumpBurst)
    (recognised : ∀ arrival ∈ received begin_ bursts, Recognised arrival.frame.headers.hrzr)
    {lines : List String}
    (file : (dumpThread (start begin_ totals) bursts).file = some lines) :
    ReadsBack (Ledger.ofArrivals begin_ (received begin_ bursts)) (readFile (contents lines)) := by
  obtain ⟨enough, records⟩ := readFile_dumped recognised file rfl
  rw [records]
  exact ⟨recordsOf_headers _ _, recordsOf_samples enough, recordsOf_metadata _ _,
    recordsOf_other _ _⟩

theorem two_frames_read_back :
    ∃ lines, (dumpThread (start 0 ⟨0, 0⟩) [twoFrames 0x50 0]).file = some lines ∧
      ReadsBack ⟨[], [⟨1514, fun _ => 0x50⟩, ⟨1514, fun _ => 0⟩], []⟩
        (readFile (contents lines)) := by
  obtain ⟨known, ledger, lines, file⟩ := @dumped_twoFrames 0x50 0 ⟨.metadata, by decide⟩
    ⟨.data, by decide⟩
  have back := dump_file_read_back 0 ⟨0, 0⟩ [twoFrames 0x50 0] known file
  rw [ledger] at back
  exact ⟨lines, file, back⟩

/-! ## The metadata in the file -/

/-- The first two words, as the metadata decoder takes them. -/
def metadataWord (words : List UInt32) : UInt64 :=
  UInt64.ofNat ((words.getD 0 0).toNat + 2 ^ 32 * (words.getD 1 0).toNat)

theorem load64_words (memory : ByteMemory.Memory) (address : Nat) :
    ByteMemory.load64 memory address =
      UInt64.ofNat ((ByteMemory.load32 memory address).toNat +
        2 ^ 32 * (ByteMemory.load32 memory (address + 4)).toNat) := by
  rw [ByteMemory.load32_toNat, ByteMemory.load32_toNat]
  exact congrArg UInt64.ofNat (ByteMemory.load_add 4 4)

theorem metadataWord_of (m : Mbuf) :
    metadataWord (metadataOf m) = ByteMemory.load64 m.data HrzrPacketAllHeaders.size := by
  rw [load64_words]
  rfl

/-- What the metadata decoder reads off the file is what it reads off the frames. -/
theorem dumped_metadata_decoded (begin_ : Nat) (totals : Totals) (bursts : List DumpBurst)
    (recognised : ∀ arrival ∈ received begin_ bursts, Recognised arrival.frame.headers.hrzr)
    {lines : List String}
    (file : (dumpThread (start begin_ totals) bursts).file = some lines) :
    ((readFile (contents lines)).filter (·.IsMetadata)).map
        (fun record => HrzrMetadataParser.decode (metadataWord record.words)) =
      ((Ledger.ofArrivals begin_ (received begin_ bursts)).written.filter (IsMetadata ·)).map
        fun m =>
          HrzrMetadataParser.decode (ByteMemory.load64 m.data HrzrPacketAllHeaders.size) := by
  obtain ⟨-, records⟩ := readFile_dumped recognised file rfl
  have words := recordsOf_metadata
    (Ledger.ofArrivals begin_ (received begin_ bursts)).written
    ((pushed ((Ledger.ofArrivals begin_ (received begin_ bursts)).earlier ++
      (Ledger.ofArrivals begin_ (received begin_ bursts)).written)).drop
      (wanted (Ledger.ofArrivals begin_ (received begin_ bursts)).earlier).length)
  rw [← records] at words
  have decoded := congrArg (List.map fun words => HrzrMetadataParser.decode (metadataWord words))
    words
  rw [List.map_map, List.map_map] at decoded
  refine decoded.trans (List.map_congr_left fun m _ => ?_)
  exact congrArg HrzrMetadataParser.decode (metadataWord_of m)

theorem two_frames_metadata :
    ∃ lines, (dumpThread (start 0 ⟨0, 0⟩) [twoFrames 0x50 0]).file = some lines ∧
      ((readFile (contents lines)).filter (·.IsMetadata)).map
        (fun record => HrzrMetadataParser.decode (metadataWord record.words)) =
      [⟨5, .noTimeSync, .unknownClock⟩] := by
  obtain ⟨known, ledger, lines, file⟩ := @dumped_twoFrames 0x50 0 ⟨.metadata, by decide⟩
    ⟨.data, by decide⟩
  have back := dumped_metadata_decoded 0 ⟨0, 0⟩ [twoFrames 0x50 0] known file
  rw [ledger] at back
  exact ⟨lines, file, back.trans (by decide)⟩

end JerryDriver.DumpThread
