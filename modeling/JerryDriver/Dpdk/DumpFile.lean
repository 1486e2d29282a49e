import JerryDriver.Dpdk.DumpQueues
import Mathlib.Data.List.Forall2

/-! What `hrzr_samples.txt` holds when `dumpThread` has ended. The block that writes it
stands inside the loop over a burst, so after the frame that finds the time up it runs again
for every further frame of the burst, with lists that hold that one frame alone. -/
namespace JerryDriver.DumpThread
open HrzrHeaderParser

/-- The line begins with the frame's header in 16 digits. -/
def BeginsWith (arrival : Arrival) (line : String) : Prop :=
  (hexField 16 arrival.frame.headers.hrzr.toNat).length = 16 ∧
    (hexField 16 arrival.frame.headers.hrzr.toNat).toList <+: line.toList

/-- One line for every frame, in order. -/
def Complete (arrivals : List Arrival) (file : Option (List String)) : Prop :=
  ∃ lines, file = some lines ∧ List.Forall₂ BeginsWith arrivals lines

variable {thread : DumpThread} {arrivals : List Arrival}

theorem length_hexField {width value : Nat} (positive : 0 < width) (fits : value < 16 ^ width) :
    (hexField width value).length = width := by
  have digits : (Nat.toDigits 16 value).length ≤ width :=
    (Nat.length_toDigits_le_iff (by decide) positive).mpr fits
  rw [hexField, String.length_ofList, List.length_leftpad, Nat.max_eq_left digits]

theorem linesOf_complete (arrivals : List Arrival) (payload meta_ : List UInt32) :
    List.Forall₂ BeginsWith arrivals
      (linesOf (arrivals.map (·.frame.headers.hrzr)) payload meta_) := by
  have begins := List.forall₂_map_left_iff.mp
    (linesOf_begin (arrivals.map (·.frame.headers.hrzr)) payload meta_)
  refine begins.imp fun arrival line begin_ => ⟨?_, begin_⟩
  exact length_hexField (by decide) arrival.frame.headers.hrzr.toNat_lt

/-- The frame that finds the time up gets its line, and nothing is left for the next. -/
theorem foldl_due (live : Live thread)
    (recognised : ∀ arrival ∈ arrivals, Recognised arrival.frame.headers.hrzr) {last : Arrival}
    (known : Recognised last.frame.headers.hrzr) (due : Due thread.begin_ last.clock) :
    ((arrivals ++ [last]).foldl processPacket thread).hrzrHeader = [] ∧
      ∃ payload meta_, ((arrivals ++ [last]).foldl processPacket thread).file =
        some (linesOf ((arrivals.foldl processPacket thread).hrzrHeader ++
          [last.frame.headers.hrzr]) payload meta_) := by
  obtain ⟨alive, began, ended⟩ := foldl_live live recognised
  obtain ⟨after, recorded, begins, freed⟩ := processPacket_recorded alive known
  rw [List.foldl_append, List.foldl_cons, List.foldl_nil]
  cases recorded with
  | kept early => exact absurd due (by rwa [began] at early)
  | written due headers file quit => exact ⟨headers, _, _, file⟩

/-- In a sequence of frames whose clock does not go back, the last frame is due if any is. -/
theorem last_due {begin_ : Nat} {front : List Arrival} {last : Arrival}
    (ordered : (front ++ [last]).Pairwise (·.clock ≤ ·.clock))
    (found : ∃ arrival ∈ front ++ [last], Due begin_ arrival.clock) : Due begin_ last.clock := by
  obtain ⟨arrival, member, due⟩ := found
  rcases List.mem_append.mp member with earlier | here
  · have later := (List.pairwise_append.mp ordered).2.2 arrival earlier last List.mem_cons_self
    exact due.later later
  · rwa [List.mem_singleton.mp here] at due

/-- When a frame before the last one was due, the last one has the file to itself. -/
theorem foldl_truncated (live : Live thread) {last : Arrival}
    (recognised : ∀ arrival ∈ arrivals ++ [last], Recognised arrival.frame.headers.hrzr)
    (ordered : (arrivals ++ [last]).Pairwise (·.clock ≤ ·.clock))
    (earlier : ∃ arrival ∈ arrivals, Due thread.begin_ arrival.clock) :
    ∃ line, ((arrivals ++ [last]).foldl processPacket thread).file = some [line] := by
  have due : Due thread.begin_ last.clock := by
    obtain ⟨arrival, member, found⟩ := earlier
    exact last_due ordered ⟨arrival, List.mem_append_left _ member, found⟩
  have known : Recognised last.frame.headers.hrzr :=
    recognised last (List.mem_append_right _ List.mem_cons_self)
  have before : ∀ arrival ∈ arrivals, Recognised arrival.frame.headers.hrzr :=
    fun arrival member => recognised arrival (List.mem_append_left _ member)
  obtain ⟨-, payload, meta_, file⟩ := foldl_due live before known due
  obtain rfl | ⟨front, previous, rfl⟩ := List.eq_nil_or_concat arrivals
  · obtain ⟨arrival, member, -⟩ := earlier
    contradiction
  rw [List.concat_eq_append] at before ordered earlier file ⊢
  have previousDue := last_due (List.pairwise_append.mp ordered).1 earlier
  obtain ⟨cleared, -⟩ := foldl_due live
    (fun arrival member => before arrival (List.mem_append_left _ member))
    (before previous (List.mem_append_right _ List.mem_cons_self)) previousDue
  rw [cleared] at file
  exact ⟨_, file⟩

/-- Whether the file is complete depends on where the time runs out: it is when the frame
that finds the time up is the last one that is received. -/
theorem foldl_complete_iff (live : Live thread) (fresh : thread.hrzrHeader = [])
    (recognised : ∀ arrival ∈ arrivals, Recognised arrival.frame.headers.hrzr)
    (ordered : arrivals.Pairwise (·.clock ≤ ·.clock))
    (ended : ∃ arrival ∈ arrivals, Due thread.begin_ arrival.clock) :
    Complete arrivals (arrivals.foldl processPacket thread).file ↔
      ∀ arrival ∈ arrivals.dropLast, ¬ Due thread.begin_ arrival.clock := by
  obtain rfl | ⟨front, last, rfl⟩ := List.eq_nil_or_concat arrivals
  · obtain ⟨arrival, member, -⟩ := ended
    contradiction
  rw [List.concat_eq_append] at recognised ordered ended ⊢
  rw [List.dropLast_concat]
  constructor
  · rintro ⟨lines, written, begins⟩ arrival member due
    obtain ⟨line, file⟩ := foldl_truncated live recognised ordered ⟨arrival, member, due⟩
    have single : lines = [line] := Option.some.inj (written.symm.trans file)
    have all := begins.length_eq
    have some_ := List.length_pos_of_mem member
    rw [single, List.length_append, List.length_singleton, List.length_singleton] at all
    omega
  · intro early
    have before : ∀ arrival ∈ front, Recognised arrival.frame.headers.hrzr :=
      fun arrival inside => recognised arrival (List.mem_append_left _ inside)
    have known : Recognised last.frame.headers.hrzr :=
      recognised last (List.mem_append_right _ List.mem_cons_self)
    obtain ⟨-, payload, meta_, file⟩ := foldl_due live before known (last_due ordered ended)
    have piled := (foldl_early live before early).1
    refine ⟨_, file, ?_⟩
    rw [piled, fresh, List.nil_append]
    have lines := linesOf_complete (front ++ [last]) payload meta_
    rwa [List.map_append] at lines

/-- When the thread has ended itself, the file is complete exactly if no frame received
before the last one found the time up. -/
theorem dump_complete_iff (begin_ : Nat) (totals : Totals) (bursts : List DumpBurst)
    (recognised : ∀ arrival ∈ received begin_ bursts, Recognised arrival.frame.headers.hrzr)
    (ordered : (received begin_ bursts).Pairwise (·.clock ≤ ·.clock))
    (ended : (dumpThread (start begin_ totals) bursts).quit = true) :
    Complete (received begin_ bursts) (dumpThread (start begin_ totals) bursts).file ↔
      ∀ arrival ∈ (received begin_ bursts).dropLast, ¬ Due begin_ arrival.clock := by
  have live := live_start begin_ totals
  have flat : dumpThread (start begin_ totals) bursts =
      (received begin_ bursts).foldl processPacket (start begin_ totals) :=
    dumpThread_received live rfl recognised
  obtain ⟨after, began, quit⟩ := foldl_live live recognised
  rw [flat, quit] at ended
  rw [flat]
  exact foldl_complete_iff live rfl recognised ordered (ended.resolve_left Bool.false_ne_true)

/-- A cleared frame, whose header is 0 and of type DATA. -/
def clearedArrival (clock : Nat) : Arrival := ⟨⟨1514, fun _ => 0⟩, clock⟩

theorem recognised_cleared {clocks : List Nat} {arrival : Arrival}
    (member : arrival ∈ clocks.map clearedArrival) : Recognised arrival.frame.headers.hrzr := by
  obtain ⟨clock, -, rfl⟩ := List.mem_map.mp member
  have data : getControlFromHeader (ByteMemory.load64 (fun _ => 0) 42) = .ok .data := by decide
  exact ⟨.data, data⟩

/-- The thread ends itself if one of its frames comes three seconds after it began. -/
theorem quit_cleared {clocks : List Nat} (small : clocks.length ≤ 32)
    (due : ∃ clock ∈ clocks, Due 0 clock) (totals : Totals) :
    received 0 [⟨clocks.map clearedArrival, by simpa⟩] = clocks.map clearedArrival ∧
      dumpThread (start 0 totals) [⟨clocks.map clearedArrival, by simpa⟩] =
        (clocks.map clearedArrival).foldl processPacket (start 0 totals) ∧
      ((clocks.map clearedArrival).foldl processPacket (start 0 totals)).quit = true := by
  obtain ⟨clock, member, late⟩ := due
  have found : ∃ arrival ∈ clocks.map clearedArrival, Due 0 arrival.clock :=
    ⟨clearedArrival clock, List.mem_map_of_mem member, late⟩
  refine ⟨received_single 0 _, rfl, ?_⟩
  exact ((foldl_live (live_start 0 totals) fun _ => recognised_cleared).2.2).mpr (.inr found)

theorem dump_complete_single :
    Complete (received 0 [⟨[1, 3000000000].map clearedArrival, by decide⟩])
        (dumpThread (start 0 ⟨0, 0⟩) [⟨[1, 3000000000].map clearedArrival, by decide⟩]).file ↔
      ∀ arrival ∈ (received 0 [⟨[1, 3000000000].map clearedArrival, by decide⟩]).dropLast,
        ¬ Due 0 arrival.clock := by
  obtain ⟨taken, flat, quit⟩ := @quit_cleared [1, 3000000000] (by decide)
    ⟨3000000000, by decide, by decide⟩ ⟨0, 0⟩
  refine dump_complete_iff 0 ⟨0, 0⟩ [⟨[1, 3000000000].map clearedArrival, by decide⟩] ?_ ?_ ?_
  · rw [taken]
    exact fun _ => recognised_cleared
  · rw [taken]
    exact List.pairwise_map.mpr (by decide)
  · rw [flat]
    exact quit

/-- Two frames of one burst, both after three seconds: the second one truncates the file. -/
theorem second_late_frame_truncates : ¬ ∀ bursts : List DumpBurst,
    (∀ arrival ∈ received 0 bursts, Recognised arrival.frame.headers.hrzr) →
    (received 0 bursts).Pairwise (·.clock ≤ ·.clock) →
    (dumpThread (start 0 ⟨0, 0⟩) bursts).quit = true →
    Complete (received 0 bursts) (dumpThread (start 0 ⟨0, 0⟩) bursts).file := by
  intro complete
  obtain ⟨taken, flat, quit⟩ := @quit_cleared [3000000000, 3000000000] (by decide)
    ⟨3000000000, by decide, by decide⟩ ⟨0, 0⟩
  have file := complete [⟨[3000000000, 3000000000].map clearedArrival, by decide⟩]
  rw [taken, flat] at file
  have known : ∀ arrival ∈ [3000000000, 3000000000].map clearedArrival,
      Recognised arrival.frame.headers.hrzr := fun _ => recognised_cleared
  have ordered : ([3000000000, 3000000000].map clearedArrival).Pairwise (·.clock ≤ ·.clock) :=
    List.pairwise_map.mpr (by decide)
  have early := (foldl_complete_iff (live_start 0 ⟨0, 0⟩) rfl known ordered
    ⟨clearedArrival 3000000000, List.mem_cons_self, by decide⟩).mp (file known ordered quit)
  exact early (clearedArrival 3000000000) List.mem_cons_self (by decide)

end JerryDriver.DumpThread
