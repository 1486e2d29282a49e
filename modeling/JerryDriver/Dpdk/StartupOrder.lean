import JerryDriver.Dpdk.Platform
import Mathlib.Data.List.Forall2

/-! The constructor against the platform. Each of its functions is met once, with the
platform it leaves behind; the loops over the streams go by induction, carrying what the
streams before have set up. Streams have to use different ports for this. -/
namespace JerryDriver.Startup
open Interaction Program Definitions

section Parts

variable {streams : List StreamAttr} {s : Platform}

/-- Nothing has failed and no thread runs yet. -/
def Platform.Quiet (s : Platform) : Prop := s.failed = false ∧ s.launches = []

theorem setupEal_keeps (quiet : s.Quiet) (first : s.lcores = none) (argv : List String) :
    (setupEal argv).Keeps (order streams)
      (fun _ after => after = { s with lcores := some (lcoresOf argv) }) Aborted s := by
  refine keeps_checked quiet first ?_ fun ret _ => keeps_pure rfl
  intro ret
  simp [fatal, attended, fails]

theorem checkAvailablePorts_keeps (quiet : s.Quiet) (initialized : s.Initialized)
    (numStreams : Nat) : (checkAvailablePorts numStreams).Keeps (order streams)
      (fun _ after => after = s) Aborted s := by
  refine keeps_checked quiet initialized ?_ fun nrPorts _ => ?_
  · intro nrPorts
    simp [fatal, attended, fails]
  · split
    · exact keeps_dropped quiet.1 trivial rfl fun _ => keeps_pure rfl
    · exact keeps_pure rfl

/-- A stream with its pool; the other members stay. -/
def Pooled (before after : StreamAttr) : Prop :=
  ∃ mbufPool, after = { before with mbufPool }

theorem allocateMemPool_keeps (quiet : s.Quiet) (initialized : s.Initialized) (i : Nat)
    (given : List StreamAttr) : (allocateMemPool i given).Keeps (order streams)
      (fun pooled after => ∃ pools, after = { s with pools := s.pools ++ pools } ∧
        pools.map Prod.fst = Platform.names "mbuf_pool_" i given ∧
        pooled.map (·.mbufPool) = (pools.map fun pool => some pool.2) ∧
        List.Forall₂ Pooled given pooled) Aborted s := by
  induction given generalizing i s with
  | nil => exact keeps_pure ⟨[], by simp, rfl, rfl, .nil⟩
  | cons stream rest ih =>
    refine keeps_checked quiet initialized ?_ fun mbufPool created => ?_
    · intro mbufPool
      simp [fatal, attended, fails]
    · have given : (mbufPool : Option Nat) ≠ none := fun null => created (by rw [null]; rfl)
      obtain ⟨pool, rfl⟩ := Option.ne_none_iff_exists'.mp given
      let made : String × Nat := ("mbuf_pool_" ++ toString i, pool)
      refine keeps_bind (keeps_mono (ih (s := { s with pools := s.pools ++ [made] }) quiet
        initialized (i + 1)) ?_ id)
      rintro others after ⟨pools, rfl, named, theirs, pooled⟩
      refine keeps_pure ⟨made :: pools, ?_, ?_, ?_, .cons ⟨some pool, rfl⟩ pooled⟩
      · simp
      · rw [List.map_cons, named, Platform.names_cons]
      · rw [List.map_cons, List.map_cons, theirs]

@[simp] theorem put_ports (port : UInt16) (now : Port) : (s.put port now).ports port = now :=
  Function.update_self ..

@[simp] theorem put_put (port : UInt16) (now later : Port) :
    (s.put port now).put port later = s.put port later := by
  simp [Platform.put]

section OnePort

variable {stream : StreamAttr} {now : Port}

theorem getDevInfo_keeps (quiet : s.Quiet) (initialized : s.Initialized) :
    (getDevInfo stream).Keeps (order streams) (fun _ after => after = s) Aborted s := by
  refine keeps_checked quiet initialized ?_ fun info _ => keeps_pure rfl
  intro info
  simp [fatal, attended, fails]

theorem configureRxConf_keeps (quiet : s.Quiet) (initialized : s.Initialized)
    (port : s.ports stream.port = now) (stopped : now.started = false) :
    (configureRxConf stream).Keeps (order streams) (fun _ after => after =
      s.put stream.port { now with rxQueues := some 1, queuesSetUp := [] }) Aborted s := by
  refine keeps_bind (keeps_mono (getDevInfo_keeps quiet initialized) ?_ id)
  rintro devInfo after rfl
  subst port
  have configured (portConf : EthConf) : (configurePort stream portConf).Keeps (order streams)
      (fun _ later => later = after.put stream.port
        { after.ports stream.port with rxQueues := some 1, queuesSetUp := [] }) Aborted after := by
    refine keeps_checked quiet ⟨initialized, stopped⟩ ?_ fun ret _ => keeps_pure rfl
    intro ret
    simp [fatal, attended, fails]
  exact keeps_bind (keeps_bind (keeps_mono (configured _) (fun same => keeps_pure same) id))

theorem setupRxQueues_keeps (quiet : s.Quiet) (rxqConf : RxConf)
    (port : s.ports stream.port = now) (stopped : now.started = false)
    (configured : now.rxQueues = some 1) (fresh : now.queuesSetUp = [])
    (pooled : ∃ pool ∈ s.pools, stream.mbufPool = some pool.2) :
    (setupRxQueues stream rxqConf).Keeps (order streams) (fun _ after =>
      after = s.put stream.port { now with queuesSetUp := [(0, stream.mbufPool)] })
      Aborted s := by
  subst port
  have queue : (setupRxQueue stream rxqConf 0).Keeps (order streams) (fun _ after =>
      after = s.put stream.port
        { s.ports stream.port with queuesSetUp := [(0, stream.mbufPool)] }) Aborted s := by
    refine keeps_checked quiet ⟨stopped, ⟨1, configured, Nat.one_pos⟩, pooled⟩ ?_ fun ret _ => ?_
    · intro ret
      simp [fatal, attended, fails]
    · refine keeps_pure ?_
      simp only [Platform.achieve, fresh, List.nil_append]
  exact keeps_bind (keeps_mono queue (fun same => keeps_pure same) id)

theorem startReceiving_keeps (quiet : s.Quiet)
    (port : s.ports stream.port = ⟨some 1, [(0, stream.mbufPool)], false, false, false⟩) :
    (do enablePromiscuousMode stream; startPort stream; assertLinkStatus stream
      : DpdkCalls Unit).Keeps (order streams)
      (fun _ after => after = s.put stream.port (.receiving stream.mbufPool)) Aborted s := by
  refine keeps_bind (keeps_checked quiet ?_ ?_ fun ret _ => keeps_pure ?_)
  · simp [Platform.Permits, port]
  · intro ret
    simp [fatal, attended, fails]
  refine keeps_bind (keeps_checked quiet ?_ ?_ fun ret _ => keeps_pure ?_)
  · simp [Platform.Permits, Platform.achieve, port]
  · intro ret
    simp [fatal, attended, fails]
  refine keeps_checked quiet ?_ ?_ fun ret _ => keeps_pure ?_
  · simp [Platform.Permits, Platform.achieve]
  · intro ret
    simp [fatal, attended, fails]
  · simp [Platform.achieve, port, Port.receiving]

theorem setupPort_keeps (quiet : s.Quiet) (initialized : s.Initialized)
    (untouched : s.ports stream.port = .untouched)
    (pooled : ∃ pool ∈ s.pools, stream.mbufPool = some pool.2) :
    (setupPort stream).Keeps (order streams)
      (fun _ after => after = s.put stream.port (.receiving stream.mbufPool)) Aborted s := by
  refine keeps_bind (keeps_mono (configureRxConf_keeps quiet initialized untouched rfl) ?_ id)
  rintro rxqConf after rfl
  refine keeps_bind (keeps_mono (setupRxQueues_keeps (s := s.put _ _) quiet rxqConf
    (put_ports ..) rfl rfl rfl pooled) ?_ id)
  rintro _ after rfl
  refine keeps_mono (startReceiving_keeps quiet ?_) ?_ id
  · simp [Port.untouched]
  · rintro _ after rfl
    simp

end OnePort

section Streams

/-- A stream with its ring; the ring may be NULL. -/
def Ringed (before after : StreamAttr) : Prop := ∃ ring, after = { before with ring }

/-- What the loop over the streams from number `i` on makes of the platform and of the
streams. -/
structure StreamsSetUp (s : Platform) (i : Nat) (given ringed : List StreamAttr)
    (after : Platform) : Prop where
  quiet : after.Quiet
  lcores : after.lcores = s.lcores
  pools : after.pools = s.pools
  rings : ∃ rings, after.rings = s.rings ++ rings ∧
    rings.map Prod.fst = Platform.names "rx_ring_" i given ∧
    ringed.map (·.ring) = rings.map Prod.snd
  others : ∀ port, port ∉ given.map StreamAttr.port → after.ports port = s.ports port
  ports : ∀ stream ∈ given, after.ports stream.port = .receiving stream.mbufPool
  streams : List.Forall₂ Ringed given ringed

theorem setupStreams_keeps (quiet : s.Quiet) (initialized : s.Initialized) (i : Nat)
    (given : List StreamAttr) (distinct : (given.map StreamAttr.port).Nodup)
    (untouched : ∀ stream ∈ given, s.ports stream.port = .untouched)
    (pooled : ∀ stream ∈ given, ∃ pool ∈ s.pools, stream.mbufPool = some pool.2) :
    (setupStreams i given).Keeps (order streams) (StreamsSetUp s i given) Aborted s := by
  induction given generalizing i s with
  | nil => exact keeps_pure ⟨quiet, rfl, rfl, ⟨[], by simp, rfl, rfl⟩, by simp, by simp, .nil⟩
  | cons stream rest ih =>
    obtain ⟨apart, distinct⟩ := List.nodup_cons.mp distinct
    refine keeps_bind (keeps_mono (setupPort_keeps quiet initialized
      (untouched stream List.mem_cons_self) (pooled stream List.mem_cons_self)) ?_ id)
    rintro _ after rfl
    -- The loop goes on whether or not there is a ring.
    refine keeps_dropped quiet.1 initialized rfl fun ring => ?_
    have elsewhere (other : StreamAttr) (member : other ∈ rest) : other.port ≠ stream.port :=
      fun same => apart (same ▸ List.mem_map_of_mem member)
    let made : String × Option Nat := ("rx_ring_" ++ toString i, ring)
    have behind := ih (s := { s.put stream.port (.receiving stream.mbufPool) with
      rings := s.rings ++ [made] }) quiet initialized (i + 1) distinct (fun other member =>
        (Function.update_of_ne (elsewhere other member) _ _).trans
          (untouched other (List.mem_cons_of_mem _ member)))
      (fun other member => pooled other (List.mem_cons_of_mem _ member))
    refine keeps_bind (keeps_mono behind ?_ id)
    intro ringed last setUp
    obtain ⟨rings, all, named, theirs⟩ := setUp.rings
    refine keeps_pure ⟨setUp.quiet, setUp.lcores, setUp.pools, ⟨made :: rings, ?_, ?_, ?_⟩, ?_, ?_,
      .cons ⟨ring, rfl⟩ setUp.streams⟩
    · rw [all, List.append_assoc, List.singleton_append]
    · rw [List.map_cons, named, Platform.names_cons]
    · rw [List.map_cons, List.map_cons, theirs]
    · intro port outside
      rw [List.map_cons, List.mem_cons, not_or] at outside
      rw [setUp.others port outside.2]
      exact Function.update_of_ne outside.1 _ _
    · intro other member
      rcases List.mem_cons.mp member with rfl | later
      · rw [setUp.others _ apart]
        exact put_ports ..
      · exact setUp.ports other later

/-- The launches of a loop over the streams from number `i` on. -/
def launches (dumpMode : Bool) (i : Nat) (given : List StreamAttr) :
    List Launch :=
  (given.map (·.lCores.2)).mapIdx fun j lcore => (threadFunction dumpMode, i + j, lcore)

theorem launches_cons (dumpMode : Bool) (i : Nat) (stream : StreamAttr) (rest : List StreamAttr) :
    launches dumpMode i (stream :: rest) =
      (threadFunction dumpMode, i, stream.lCores.2) :: launches dumpMode (i + 1) rest := by
  simp [launches, List.mapIdx_cons, Nat.add_comm, Nat.add_left_comm]

theorem launchThreads_keeps (running : s.failed = false) (prepared : s.Prepared streams)
    {lcores : List Int} (initialized : s.lcores = some lcores) (dumpMode : Bool) (i : Nat)
    (given : List StreamAttr) (known : ∀ stream ∈ given, stream.lCores.2 ∈ lcores) :
    (launchThreads dumpMode i given).Keeps (order streams) (fun _ after => ∃ made,
      after = { s with launches := s.launches ++ made } ∧
        made.map Prod.fst = launches dumpMode i given) Aborted s := by
  induction given generalizing i s with
  | nil => exact keeps_pure ⟨[], by simp, rfl⟩
  | cons stream rest ih =>
    refine keeps_dropped running ⟨prepared, lcores, initialized, known stream List.mem_cons_self⟩
      rfl fun ret => ?_
    let launch : Launch × Int := ((threadFunction dumpMode, i, stream.lCores.2), ret)
    refine keeps_mono (ih (s := { s with launches := s.launches ++ [launch] }) running
      ⟨prepared.pools, prepared.rings, prepared.ports⟩ initialized (i + 1)
      fun other member => known other (List.mem_cons_of_mem _ member)) ?_ id
    rintro _ after ⟨made, rfl, same⟩
    refine ⟨launch :: made, ?_, ?_⟩
    · rw [List.append_assoc, List.singleton_append]
    · rw [List.map_cons, same, launches_cons]

end Streams

end Parts

/-! ## The list of lcores -/

def allLCores (streams : List StreamAttr) : List Int :=
  streams.flatMap fun stream => [stream.lCores.1, stream.lCores.2]

theorem toList_lCoresString (text : String) {streams : List StreamAttr} (some_ : streams ≠ []) :
    (lCoresString text streams).toList =
      text.toList ++ [','].intercalate ((allLCores streams).map fun n => (toString n).toList) := by
  induction streams generalizing text with
  | nil => contradiction
  | cons stream rest ih =>
    cases rest with
    | nil => simp [lCoresString, allLCores, List.append_assoc]
    | cons next others =>
      rw [lCoresString, ih _ (List.cons_ne_nil _ _)]
      · simp [allLCores, List.append_assoc]
      · exact List.cons_ne_nil _ _

/-- The environment is told of exactly the lcores of all streams, in order. -/
theorem lcoresOf_lCoresString (streams : List StreamAttr) (some_ : streams ≠ []) :
    lcoresOf ["dpdk", "-l", lCoresString "" streams, "--log-level", "lib.eal:error"] =
      allLCores streams := by
  have several : allLCores streams ≠ [] := by
    cases streams with
    | nil => contradiction
    | cons stream rest => simp [allLCores]
  change DigitText.commaSeparated (lCoresString "" streams).toList = _
  rw [toList_lCoresString "" some_, String.toList_empty, List.nil_append,
    DigitText.commaSeparated_intercalate several]

/-! ## The whole constructor -/

/-- A stream as the constructor leaves it: with a pool and perhaps a ring. -/
def SetUp (before after : StreamAttr) : Prop :=
  ∃ mbufPool ring, after = { before with mbufPool, ring }

/-- What stands once the object exists. Everything is set up and every launch asked for; each
stream holds the pool and the ring that were made for it, and its port receives into that
pool. -/
structure Complete (streams : List StreamAttr) (norm : ℚ) (dumpMode : Bool)
    (source : Constructed) (s : Platform) : Prop where
  norm : source.hrzrParser.norm = norm
  running : s.failed = false
  prepared : s.Prepared streams
  launches : s.launches.map Prod.fst = launches dumpMode 0 streams
  streams : List.Forall₂ SetUp streams source.streams
  pools : source.streams.map (·.mbufPool) = s.pools.map fun pool => some pool.2
  rings : source.streams.map (·.ring) = s.rings.map Prod.snd
  ports : ∀ stream ∈ source.streams, s.ports stream.port = .receiving stream.mbufPool

variable {streams : List StreamAttr} {s : Platform}

/-- The threads and the callers of a completed source run with what was asked for. -/
theorem Complete.setup {norm : ℚ} {dumpMode : Bool} {source : Constructed}
    (complete : Complete streams norm dumpMode source s) :
    source.setup.numStreams = streams.length ∧ source.setup.parser.norm = norm ∧
      ∀ n stream, streams[n]? = some stream → source.setup.udpRxPort n = stream.udpRxPort := by
  have same := complete.streams.length_eq
  refine ⟨same.symm, complete.norm, ?_⟩
  intro n stream found
  obtain ⟨inside, rfl⟩ := List.getElem?_eq_some_iff.mp found
  have there : n < source.streams.length := same ▸ inside
  obtain ⟨mbufPool, ring, after⟩ := complete.streams.get inside there
  have place : source.streams[n]? = some source.streams[n] := List.getElem?_eq_getElem there
  simp only [Constructed.setup, place, Option.elim_some]
  have port := congrArg StreamAttr.udpRxPort after
  exact port

/-- What the environment and the pools make of the platform and of the streams. -/
structure Allocated (streams pooled : List StreamAttr) (s : Platform) : Prop where
  fresh : ∃ lcores pools, s = { Platform.start with lcores := some lcores, pools } ∧
    (streams ≠ [] → lcores = allLCores streams)
  names : s.pools.map Prod.fst = Platform.names "mbuf_pool_" 0 streams
  pools : pooled.map (·.mbufPool) = s.pools.map fun pool => some pool.2
  streams : List.Forall₂ Pooled streams pooled

theorem setupDpdk_keeps :
    (setupDpdk streams).Keeps (order streams) (Allocated streams) Aborted .start := by
  have quiet : Platform.start.Quiet := ⟨rfl, rfl⟩
  refine keeps_bind (keeps_mono (setupEal_keeps quiet rfl _) ?_ id)
  rintro _ after rfl
  let listed : Platform :=
    { Platform.start with lcores := some (lcoresOf
      ["dpdk", "-l", lCoresString "" streams, "--log-level", "lib.eal:error"]) }
  have initialized : listed.Initialized := rfl
  refine keeps_bind (keeps_mono (checkAvailablePorts_keeps (s := listed) quiet initialized _) ?_ id)
  rintro _ after rfl
  refine keeps_mono (allocateMemPool_keeps (s := listed) quiet initialized 0 streams) ?_ id
  rintro pooled after ⟨pools, rfl, named, theirs, each⟩
  exact ⟨⟨_, pools, rfl, lcoresOf_lCoresString streams⟩, named, theirs, each⟩

theorem map_eq_of_forall₂ {α β : Type} {R : α → α → Prop} {xs ys : List α} {f : α → β}
    (each : List.Forall₂ R xs ys) (same : ∀ {x y}, R x y → f y = f x) : ys.map f = xs.map f := by
  induction each with
  | nil => rfl
  | cons related rest ih => rw [List.map_cons, List.map_cons, same related, ih]

section Allocation

variable {pooled ringed : List StreamAttr} {after : Platform}

theorem Allocated.quiet (allocated : Allocated streams pooled s) : s.Quiet := by
  obtain ⟨lcores, pools, rfl, -⟩ := allocated.fresh
  exact ⟨rfl, rfl⟩

theorem Allocated.initialized (allocated : Allocated streams pooled s) : s.Initialized := by
  obtain ⟨lcores, pools, rfl, -⟩ := allocated.fresh
  rfl

theorem Allocated.untouched (allocated : Allocated streams pooled s) (port : UInt16) :
    s.ports port = .untouched := by
  obtain ⟨lcores, pools, rfl, -⟩ := allocated.fresh
  rfl

theorem Allocated.ports (allocated : Allocated streams pooled s) :
    pooled.map StreamAttr.port = streams.map StreamAttr.port := by
  apply map_eq_of_forall₂ allocated.streams
  rintro before after ⟨mbufPool, rfl⟩
  rfl

/-- The pool of a stream is one that was created. -/
theorem Allocated.created (allocated : Allocated streams pooled s) {stream : StreamAttr}
    (member : stream ∈ pooled) : ∃ pool ∈ s.pools, stream.mbufPool = some pool.2 := by
  have created : stream.mbufPool ∈ s.pools.map fun pool => some pool.2 :=
    allocated.pools ▸ List.mem_map_of_mem member
  obtain ⟨made, known, same⟩ := List.mem_map.mp created
  exact ⟨made, known, same.symm⟩

theorem setUp_streams (pools : List.Forall₂ Pooled streams pooled)
    (rings : List.Forall₂ Ringed pooled ringed) : List.Forall₂ SetUp streams ringed := by
  induction pools generalizing ringed with
  | nil =>
    cases rings
    exact .nil
  | cons one rest ih =>
    cases rings with
    | cons other others =>
      obtain ⟨mbufPool, rfl⟩ := one
      obtain ⟨ring, rfl⟩ := other
      exact .cons ⟨mbufPool, ring, rfl⟩ (ih others)

/-- Before the first launch everything is set up. -/
structure Ready (streams ringed : List StreamAttr) (s : Platform) : Prop where
  quiet : s.Quiet
  prepared : s.Prepared streams
  streams : List.Forall₂ SetUp streams ringed
  pools : ringed.map (·.mbufPool) = s.pools.map fun pool => some pool.2
  rings : ringed.map (·.ring) = s.rings.map Prod.snd
  ports : ∀ stream ∈ ringed, s.ports stream.port = .receiving stream.mbufPool

theorem Allocated.ready (allocated : Allocated streams pooled s)
    (setUp : StreamsSetUp s 0 pooled ringed after) : Ready streams ringed after := by
  obtain ⟨rings, all, ringNames, theirs⟩ := setUp.rings
  have none_ : s.rings = [] := by
    obtain ⟨lcores, pools, rfl, -⟩ := allocated.fresh
    rfl
  rw [none_, List.nil_append] at all
  have kept : (ringed.map fun stream => (stream.port, stream.mbufPool)) =
      pooled.map fun stream => (stream.port, stream.mbufPool) := by
    apply map_eq_of_forall₂ setUp.streams
    rintro before after ⟨ring, rfl⟩
    rfl
  have pools : ringed.map (·.mbufPool) = pooled.map (·.mbufPool) := by
    simpa [Function.comp_def] using congrArg (List.map Prod.snd) kept
  refine ⟨setUp.quiet, ⟨?_, ?_, ?_⟩, setUp_streams allocated.streams setUp.streams, ?_, ?_, ?_⟩
  · rw [setUp.pools, allocated.names]
  · rw [all, ringNames, Platform.names, Platform.names, allocated.streams.length_eq]
  · intro stream member
    have used : stream.port ∈ pooled.map StreamAttr.port :=
      allocated.ports ▸ List.mem_map_of_mem member
    obtain ⟨other, found, same⟩ := List.mem_map.mp used
    obtain ⟨pool, created, its⟩ := allocated.created found
    refine ⟨pool, setUp.pools ▸ created, ?_⟩
    rw [← same, setUp.ports other found, its]
  · rw [pools, allocated.pools, setUp.pools]
  · rw [theirs, all]
  · intro stream member
    have pair : (stream.port, stream.mbufPool) ∈
        pooled.map fun stream => (stream.port, stream.mbufPool) :=
      kept ▸ List.mem_map_of_mem member
    obtain ⟨other, found, same⟩ := List.mem_map.mp pair
    obtain ⟨port, pool⟩ := Prod.mk.inj same
    rw [← port, ← pool, setUp.ports other found]

theorem Ready.lCores (ready : Ready streams ringed s) :
    ringed.map (·.lCores.2) = streams.map (·.lCores.2) := by
  apply map_eq_of_forall₂ ready.streams
  rintro before after ⟨mbufPool, ring, rfl⟩
  rfl

/-- The second lcore of every stream is one that the environment was told of. -/
theorem Ready.known (ready : Ready streams ringed s) {stream : StreamAttr}
    (member : stream ∈ ringed) : streams ≠ [] ∧ stream.lCores.2 ∈ allLCores streams := by
  have named : stream.lCores.2 ∈ streams.map (·.lCores.2) :=
    ready.lCores ▸ List.mem_map_of_mem member
  obtain ⟨other, found, same⟩ := List.mem_map.mp named
  rw [← same]
  exact ⟨List.ne_nil_of_mem found, List.mem_flatMap.mpr ⟨other, found, by simp⟩⟩

end Allocation

/-- A norm of zero is refused before anything else happens. -/
theorem create_zero (dumpMode : Bool) : create streams 0 dumpMode =
    .throws (.thrown (.invalidValueError "Norm cannot be 0.")) := by
  rw [create, (HrzrParser.create_error_iff 0).mpr rfl]
  rfl

theorem create_keeps {norm : ℚ} (nonzero : norm ≠ 0) (dumpMode : Bool)
    (distinct : (streams.map StreamAttr.port).Nodup) :
    (create streams norm dumpMode).Keeps (order streams) (Complete streams norm dumpMode)
      Aborted .start := by
  have parsed : HrzrParser.create norm = .ok ⟨norm, nonzero⟩ := dif_neg nonzero
  rw [create, parsed, Except.mapError, ofExcept_ok_bind]
  refine keeps_bind (keeps_mono setupDpdk_keeps ?_ id)
  intro pooled s allocated
  refine keeps_bind (keeps_mono (setupStreams_keeps allocated.quiet allocated.initialized 0 pooled
    (allocated.ports ▸ distinct) (fun stream _ => allocated.untouched stream.port)
    (fun _ => allocated.created)) ?_ id)
  intro ringed after setUp
  have ready := allocated.ready setUp
  obtain ⟨lcores, pools, rfl, listed⟩ := allocated.fresh
  have known (stream : StreamAttr) (member : stream ∈ ringed) : stream.lCores.2 ∈ lcores := by
    obtain ⟨some_, named⟩ := ready.known member
    rwa [listed some_]
  refine keeps_bind (keeps_mono (launchThreads_keeps ready.quiet.1 ready.prepared setUp.lcores
    dumpMode 0 ringed known) ?_ id)
  rintro _ last ⟨made, rfl, same⟩
  refine keeps_pure ⟨rfl, ready.quiet.1,
    ⟨ready.prepared.pools, ready.prepared.rings, ready.prepared.ports⟩, ?_, ready.streams,
    ready.pools, ready.rings, ready.ports⟩
  change List.map Prod.fst (after.launches ++ made) = _
  rw [ready.quiet.2, List.nil_append, same, launches, launches, ready.lCores]

/-! ## Executions -/

abbrev History := List (Event Call Call.Result)

/-- An execution of the constructor, with the calls made and what they returned. -/
def execution (streams : List StreamAttr) (norm : ℚ) (dumpMode : Bool)
    (answers : History → (call : Call) → call.Result) : Except Ending Constructed × History :=
  (create streams norm dumpMode).run (recording answers) []

def Failed (event : Event Call Call.Result) : Prop := fails event.1 event.2 = true

def Fatal (event : Event Call Call.Result) : Prop := fatal event.1 event.2 = true

def launchOf : Call → Option Launch
  | .ealRemoteLaunch function numStream lcore => some (function, numStream, lcore)
  | _ => none

/-- The threads whose launch a history asks for. -/
def threads (history : History) : List Launch := history.filterMap fun event => launchOf event.1

theorem achieve_launches (call : Call) (result : call.Result) :
    (s.achieve call result).launches.map Prod.fst =
      s.launches.map Prod.fst ++ (launchOf call).toList := by
  cases call <;> simp [Platform.achieve, Platform.put, launchOf]

theorem launchOf_of_fatal {call : Call} {result : call.Result} (failed : fatal call result = true) :
    launchOf call = none := by
  cases call with
  | ealRemoteLaunch function numStream lcore => contradiction
  | _ => rfl

theorem next_launches (event : Event Call Call.Result) :
    ((order streams).next s event.1 event.2).launches.map Prod.fst =
      s.launches.map Prod.fst ++ (launchOf event.1).toList := by
  simp only [order]
  split
  · rename_i failed
    simp [launchOf_of_fatal failed]
  · exact achieve_launches ..

theorem threads_cons (event : Event Call Call.Result) (rest : History) :
    threads (event :: rest) = (launchOf event.1).toList ++ threads rest := by
  simp only [threads, List.filterMap_cons]
  cases launchOf event.1 <;> rfl

theorem follow_launches (history : History) :
    ((order streams).follow s history).launches.map Prod.fst =
      s.launches.map Prod.fst ++ threads history := by
  induction history generalizing s with
  | nil => simp [threads, Monitor.follow]
  | cons event rest ih =>
    rw [Monitor.follow_cons, ih, next_launches, threads_cons, List.append_assoc]

/-- A failure that the constructor survives is a ring or a launch that was not granted. -/
theorem achieve_granted {call : Call} {result : call.Result}
    (survived : ¬ fatal call result = true) :
    (s.achieve call result).Granted ↔ s.Granted ∧ ¬ fails call result = true := by
  cases call with
  | ringCreate name count =>
    simp [Platform.Granted, Platform.achieve, fails, forall_and, or_imp, and_right_comm,
      Option.isSome_iff_ne_none]
  | ealRemoteLaunch function numStream lcore =>
    simp [Platform.Granted, Platform.achieve, fails, forall_and, or_imp, and_assoc]
  | _ => exact (and_iff_left survived).symm

theorem follow_granted {history : History} (survived : ∀ event ∈ history, ¬ Fatal event) :
    ((order streams).follow s history).Granted ↔
      s.Granted ∧ ∀ event ∈ history, ¬ Failed event := by
  induction history generalizing s with
  | nil => simp [Monitor.follow]
  | cons event rest ih =>
    obtain ⟨first, others⟩ := List.forall_mem_cons.mp survived
    have next : (order streams).next s event.1 event.2 = s.achieve event.1 event.2 := if_neg first
    rw [Monitor.follow_cons, next, ih others, achieve_granted first, List.forall_mem_cons,
      and_assoc]
    rfl

theorem achieve_failed (call : Call) (result : call.Result) :
    (s.achieve call result).failed = s.failed := by
  cases call <;> rfl

/-- Only the last call of a history in order can have failed fatally. -/
theorem failed_last {history : History} (running : s.failed = false)
    (accepts : (order streams).Accepts s history) :
    (((order streams).follow s history).failed = false ∧ ∀ event ∈ history, ¬ Fatal event) ∨
    (((order streams).follow s history).failed = true ∧ ∃ before last,
      history = before ++ [last] ∧ Fatal last ∧ ∀ event ∈ before, ¬ Fatal event) := by
  induction history generalizing s with
  | nil => exact .inl ⟨running, List.forall_mem_nil _⟩
  | cons event rest ih =>
    obtain ⟨allowed, behind⟩ := accepts
    rw [Monitor.follow_cons]
    by_cases failed : Fatal event
    · have next : (order streams).next s event.1 event.2 = { s with failed := true } :=
        if_pos failed
      rw [next] at behind ⊢
      cases rest with
      | nil => exact .inr ⟨rfl, [], event, rfl, failed, List.forall_mem_nil _⟩
      | cons other others => exact absurd behind.1.1 (by simp)
    · have next : (order streams).next s event.1 event.2 = s.achieve event.1 event.2 :=
        if_neg failed
      rw [next] at behind ⊢
      rcases ih ((achieve_failed ..).trans running) behind with
        ⟨state, none_⟩ | ⟨state, before, last, rfl, fault, earlier⟩
      · exact .inl ⟨state, List.forall_mem_cons.mpr ⟨failed, none_⟩⟩
      · exact .inr ⟨state, event :: before, last, rfl, fault,
          List.forall_mem_cons.mpr ⟨failed, earlier⟩⟩

/-- Whatever DPDK answers, the constructor makes every call in a state that permits it. In
particular nothing follows a fatal failure, and no thread is launched before every port and
pool is set up and every ring asked for. -/
theorem startup_in_order (streams : List StreamAttr) (norm : ℚ) (dumpMode : Bool)
    (answers : History → (call : Call) → call.Result)
    (distinct : (streams.map StreamAttr.port).Nodup) :
    (order streams).Accepts .start (execution streams norm dumpMode answers).2 := by
  by_cases zero : norm = 0
  · rw [execution, zero, create_zero]
    trivial
  · obtain ⟨history, recorded, accepted, -⟩ :=
      (create_keeps zero dumpMode distinct).run answers []
    rw [execution, recorded, List.nil_append]
    exact accepted

/-- A platform with two ports. It creates the rings with the given names, and the links of
the given ports are up; nothing else fails. -/
def granting (rings : List String) (links : List UInt16) : (call : Call) → call.Result
  | .ethDevCountAvail => 2
  | .warn _ _ => ()
  | .pktmbufPoolCreate name _ => some name.length
  | .ringCreate name _ => if name ∈ rings then some name.length else none
  | .ethDevInfoGet _ => (0, ⟨⟨32, 0, 0⟩, 0⟩)
  | .ethLinkGet port => (0, decide (port ∈ links))
  | .ealInit _ | .ethDevConfigure _ _ _ _ | .ethRxQueueSetup _ _ _ _ _
  | .ethPromiscuousEnable _ | .ethDevStart _ | .ealRemoteLaunch _ _ _ => 0

def twoStreams : List StreamAttr :=
  [⟨(0, 1), 0, 5000, none, none⟩, ⟨(2, 3), 1, 5001, none, none⟩]

/-- The second ring is not created, and both threads are launched all the same. -/
theorem two_streams_in_order : (order twoStreams).Accepts .start
    (execution twoStreams 1 false fun _ => granting ["rx_ring_0"] [0, 1]).2 :=
  startup_in_order twoStreams 1 false (fun _ => granting ["rx_ring_0"] [0, 1]) (by decide)

/-- How a construction can end. Either no failure was fatal, every stream holds the pool and
the ring that were made for it and its launch was asked for; a call has failed then exactly
if a ring is missing or a launch was refused. Or the first fatal failure ended it, or before
any call the norm, and no launch was asked for. -/
theorem startup_outcome (streams : List StreamAttr) (norm : ℚ) (dumpMode : Bool)
    (answers : History → (call : Call) → call.Result)
    (distinct : (streams.map StreamAttr.port).Nodup) {result : Except Ending Constructed}
    {history : History} (executed : execution streams norm dumpMode answers = (result, history)) :
    (∃ source, result = .ok source ∧ (∀ event ∈ history, ¬ Fatal event) ∧
      threads history = launches dumpMode 0 streams ∧
      Complete streams norm dumpMode source ((order streams).follow .start history) ∧
      ((∀ event ∈ history, ¬ Failed event) ↔
        ((order streams).follow .start history).Granted)) ∨
    (∃ ending, result = .error ending ∧ threads history = [] ∧
      (norm = 0 ∧ history = [] ∨ ∃ before last, history = before ++ [last] ∧ Fatal last ∧
        ∀ event ∈ before, ¬ Fatal event)) := by
  by_cases zero : norm = 0
  · rw [execution, zero, create_zero] at executed
    cases executed
    exact .inr ⟨_, rfl, rfl, .inl ⟨zero, rfl⟩⟩
  obtain ⟨events, recorded, accepted, ended⟩ := (create_keeps zero dumpMode distinct).run answers []
  rw [execution] at executed
  rw [executed] at recorded ended
  simp only [List.nil_append] at recorded
  subst recorded
  have launched : ((order streams).follow .start history).launches.map Prod.fst =
      threads history := (follow_launches history).trans (List.nil_append _)
  cases result with
  | ok source =>
    have complete : Complete streams norm dumpMode source _ := ended
    rcases failed_last rfl accepted with ⟨running, survived⟩ | ⟨failed, -⟩
    · refine .inl ⟨source, rfl, survived, launched.symm.trans complete.launches, complete, ?_⟩
      have nothing : Platform.start.Granted := ⟨List.forall_mem_nil _, List.forall_mem_nil _⟩
      rw [follow_granted survived, and_iff_right nothing]
    · rw [complete.running] at failed
      contradiction
  | error ending =>
    cases ending with
    | thrown thrown => exact ended.elim
    | rteExit format arguments =>
      obtain ⟨failed, none_⟩ : _ ∧ _ := ended
      rw [none_, List.map_nil] at launched
      rcases failed_last rfl accepted with ⟨running, -⟩ | ⟨-, shape⟩
      · rw [running] at failed
        contradiction
      · exact .inr ⟨_, rfl, launched.symm, .inr shape⟩

/-- Without the second ring the source is constructed all the same; with the second link down
it is not. -/
theorem two_streams_outcome :
    (∃ source history,
      execution twoStreams 1 false (fun _ => granting ["rx_ring_0"] [0, 1]) =
        (.ok source, history) ∧
      source.streams.map (·.ring) = [some 9, none] ∧
      threads history = [(.rxThread, 0, 1), (.rxThread, 1, 3)] ∧
      ¬ ∀ event ∈ history, ¬ Failed event) ∧
    ∃ before last, execution twoStreams 1 false
        (fun _ => granting ["rx_ring_0", "rx_ring_1"] [0]) =
        (.error (.rteExit "Link is not up" []), before ++ [last]) ∧
      threads (before ++ [last]) = [] ∧ Fatal last ∧ ∀ event ∈ before, ¬ Fatal event := by
  constructor
  · rcases startup_outcome twoStreams 1 false (fun _ => granting ["rx_ring_0"] [0, 1]) (by decide)
      rfl with ⟨source, made, -, asked, complete, granted⟩ | ⟨ending, ended, -⟩
    · refine ⟨source, _, Prod.ext made rfl, complete.rings.trans rfl, asked, ?_⟩
      intro fine
      obtain ⟨rings, -⟩ := granted.mp fine
      have second := rings ("rx_ring_1", none) (.tail _ (.head _))
      contradiction
    · cases ended
  · rcases startup_outcome twoStreams 1 false
      (fun _ => granting ["rx_ring_0", "rx_ring_1"] [0]) (by decide) rfl with
      ⟨source, made, -⟩ | ⟨ending, ended, none_, ⟨zero, -⟩ | ⟨before, last, all, fault⟩⟩
    · cases made
    · contradiction
    · exact ⟨before, last, Prod.ext rfl all, all ▸ none_, fault⟩

end JerryDriver.Startup
