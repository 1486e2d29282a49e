import JerryDriver.IqClient.Fields
import JerryDriver.Library.Interleaving
import JerryDriver.Library.Registers

/-! Clients that share a device and have the same channel selected. A setter is two
calls, so between the read of a message and its write the message may change; the write
then brings back what was read. Neither side locks a message or counts its versions. -/
namespace JerryDriver
open Interaction Interleaving Registers Transition

namespace SharedDevice

abbrev Client := Party ReadModifyWrite Request (fun request => Reply request.Message) Thrown
  ErrorMessage

abbrev Config (ι : Type) := Interleaving.Config ι World ReadModifyWrite Request
  (fun request => Reply request.Message) Thrown ErrorMessage

section Setup

variable {ι : Type} [DecidableEq ι] (firmware : Firmware) (outcomes : Outcomes)
  (clients : ι → IqClient)

/-- One call or one move to the next setter, by the client whose turn it is. -/
def step (config : Config ι) (i : ι) : Option (Config ι) :=
  Interleaving.step (fun i setter => setter.call (clients i)) (firmware.serve outcomes) config i

end Setup

/-- The client has read a message for a setter and writes it with its next call. -/
def Writing (client : Client) (setter : ReadModifyWrite) : Prop :=
  ∃ stub setting next, client.running = some (setter, .call (.set stub setting) next)

/-- No other client is between the read and the write of a field's message when a client
writes the field for the last time. -/
def Undisturbed {ι : Type} (field : Field) (config : Config ι) (i : ι) : Prop :=
  ∀ setter, Writing (config.parties i) setter → setter.sets field ≠ none →
    lastSet ReadModifyWrite.sets field (config.parties i).jobs = none →
    ∀ other ≠ i, ∀ disturbing, Writing (config.parties other) disturbing →
      disturbing.message ≠ field.message

/-! ## What a turn does -/

/-- The write of a setter that has read `snapshot`. -/
def write (client : IqClient) (setter : ReadModifyWrite) (snapshot : ChannelState) :
    Calls ErrorMessage :=
  client.grpcClient.callSetter client.msr4Channel (setter.setting snapshot)

/-- Where a client can be, with a condition on what it has read. -/
inductive Stage (client : IqClient) (P : ReadModifyWrite → ChannelState → Prop) :
    Option (ReadModifyWrite × Calls ErrorMessage) → Prop where
  | idle : Stage client P none
  | reading (setter : ReadModifyWrite) (implemented : setter ≠ .udp (.protocol .AMMOS)) :
      Stage client P (some (setter, setter.call client))
  | writing (setter : ReadModifyWrite) (implemented : setter ≠ .udp (.protocol .AMMOS))
      (snapshot : ChannelState) (holds : P setter snapshot) :
      Stage client P (some (setter, write client setter snapshot))
  | ended (setter : ReadModifyWrite) (program : Calls ErrorMessage)
      (halts : ∀ r next, program ≠ .call r next) : Stage client P (some (setter, program))

variable {client : IqClient} {P : ReadModifyWrite → ChannelState → Prop}

theorem Stage.of_call (setter : ReadModifyWrite) :
    Stage client P (some (setter, setter.call client)) := by
  by_cases implemented : setter = .udp (.protocol .AMMOS)
  · subst implemented
    refine .ended _ _ ?_
    intro r next same
    cases same
  · exact .reading setter implemented

/-- A setter starts with a read, which leaves the device alone; what it has read goes
into its write. -/
theorem call_reads (client : IqClient) (firmware : Firmware) {outcomes : Outcomes}
    (succeeds : ∀ i, (outcomes i).Applied) {setter : ReadModifyWrite}
    (implemented : setter ≠ .udp (.protocol .AMMOS)) (world : World) :
    ∃ r next, setter.call client = .call r next ∧ (∀ stub setting, r ≠ .set stub setting) ∧
      (firmware.serve outcomes world r).2.device = world.device ∧
      next (firmware.serve outcomes world r).1 =
        write client setter (world.device client.msr4Channel) := by
  have read := succeeds world.calls
  cases reply : outcomes world.calls with
  | failed failure =>
    rw [reply] at read
    exact read.elim
  | delivered answer =>
    cases setter with
    | rf edit =>
      refine ⟨_, _, edit.call_eq client, ?_, ?_, ?_⟩
      · intro stub setting same
        cases same
      · simp only [Firmware.serve, reply]
        rfl
      · simp only [Firmware.serve, reply]
        rfl
    | udp edit =>
      have other : edit ≠ .protocol .AMMOS := fun same => implemented (by rw [same])
      refine ⟨_, _, edit.call_eq client other, ?_, ?_, ?_⟩
      · intro stub setting same
        cases same
      · simp only [Firmware.serve, reply]
        rfl
      · simp only [Firmware.serve, reply]
        rfl

theorem write_writes (client : IqClient) (firmware : Firmware) {outcomes : Outcomes}
    (succeeds : ∀ i, (outcomes i).Applied) (setter : ReadModifyWrite) (snapshot : ChannelState)
    (world : World) :
    ∃ r next, write client setter snapshot = .call r next ∧
      (∃ stub setting, r = .set stub setting) ∧
      (firmware.serve outcomes world r).2.device = Function.update world.device
        client.msr4Channel (firmware.apply (world.device client.msr4Channel)
          (setter.setting snapshot)) ∧
      ∀ s after, next (firmware.serve outcomes world r).1 ≠ .call s after := by
  have applied := succeeds world.calls
  refine ⟨_, _, rfl, ⟨_, _, rfl⟩, ?_, ?_⟩
  · cases reply : outcomes world.calls with
    | failed failure =>
      rw [reply] at applied
      exact applied.elim
    | delivered answer =>
      rw [reply] at applied
      simp only [Firmware.serve, reply, Firmware.effect]
      exact if_pos applied
  · intro s after same
    cases same

section Turns

variable {ι : Type} [DecidableEq ι] {firmware : Firmware} {outcomes : Outcomes}
  {clients : ι → IqClient} {config after : Config ι} {i : ι}

/-- The outcome of a turn for the device and for the client that took it. -/
inductive Turn (firmware : Firmware) (clients : ι → IqClient)
    (P : ReadModifyWrite → ChannelState → Prop) (config : Config ι) (i : ι)
    (after : Config ι) : Prop where
  | begins (setter : ReadModifyWrite) (jobs : List ReadModifyWrite)
      (idle : config.parties i = ⟨none, setter :: jobs⟩)
      (device : after.world.device = config.world.device)
      (parties : after.parties =
        Function.update config.parties i ⟨some (setter, setter.call (clients i)), jobs⟩)
  | reads (setter : ReadModifyWrite) (jobs : List ReadModifyWrite)
      (implemented : setter ≠ .udp (.protocol .AMMOS))
      (running : ∃ r next, config.parties i = ⟨some (setter, .call r next), jobs⟩)
      (device : after.world.device = config.world.device)
      (parties : after.parties = Function.update config.parties i
        ⟨some (setter, write (clients i) setter (config.world.device (clients i).msr4Channel)),
          jobs⟩)
  | writes (setter : ReadModifyWrite) (jobs : List ReadModifyWrite)
      (implemented : setter ≠ .udp (.protocol .AMMOS)) (snapshot : ChannelState)
      (holds : P setter snapshot)
      (running : ∃ r next, config.parties i = ⟨some (setter, .call r next), jobs⟩)
      (writing : Writing (config.parties i) setter)
      (device : after.world.device = Function.update config.world.device (clients i).msr4Channel
        (firmware.apply (config.world.device (clients i).msr4Channel) (setter.setting snapshot)))
      (program : Calls ErrorMessage) (halts : ∀ r next, program ≠ .call r next)
      (parties : after.parties =
        Function.update config.parties i ⟨some (setter, program), jobs⟩)
  | ends (setter : ReadModifyWrite) (program : Calls ErrorMessage) (jobs : List ReadModifyWrite)
      (running : config.parties i = ⟨some (setter, program), jobs⟩)
      (halts : ∀ r next, program ≠ .call r next)
      (device : after.world.device = config.world.device)
      (parties : after.parties = Function.update config.parties i ⟨none, jobs⟩)

theorem turn_of_step (succeeds : ∀ i, (outcomes i).Applied)
    (taken : step firmware outcomes clients config i = some after)
    (stage : Stage (clients i) P (config.parties i).running) :
    Turn firmware clients P config i after := by
  cases step_move taken with
  | begins setter jobs idle => exact .begins setter jobs idle rfl rfl
  | ends setter program jobs running halts => exact .ends setter program jobs running halts rfl rfl
  | requests setter r next jobs running =>
    rw [running] at stage
    generalize expected : (.call r next : Calls ErrorMessage) = program at stage
    cases stage with
    | ended setter program halts => exact absurd expected.symm (halts r next)
    | reading setter implemented =>
      obtain ⟨r', next', call, -, device, reply⟩ :=
        call_reads (clients i) firmware succeeds implemented config.world
      rw [call] at expected
      cases expected
      refine .reads setter jobs implemented ⟨r, next, running⟩ device ?_
      rw [Config.put, reply]
    | writing setter implemented snapshot holds =>
      obtain ⟨r', next', call, ⟨stub, setting, sends⟩, device, halts⟩ :=
        write_writes (clients i) firmware succeeds setter snapshot config.world
      rw [call] at expected
      cases expected
      subst sends
      have writing : Writing (config.parties i) setter := ⟨stub, setting, next, by rw [running]⟩
      exact .writes setter jobs implemented snapshot holds ⟨_, next, running⟩ writing device _ halts
        rfl

/-- The value that a client has still to write to a field. -/
def owed (field : Field) (client : Client) : Option field.Value :=
  lastSet ReadModifyWrite.sets field client.pending

theorem owed_call (field : Field) (client : IqClient) (setter : ReadModifyWrite)
    (jobs : List ReadModifyWrite) :
    owed field ⟨some (setter, setter.call client), jobs⟩ =
      lastSet ReadModifyWrite.sets field (setter :: jobs) := by
  cases setter with
  | rf edit => cases edit <;> rfl
  | udp edit =>
    cases edit with
    | port value => rfl
    | destinationAddress value => rfl
    | streamingStatus value => rfl
    | protocol value =>
      cases value with
      | HRZR => rfl
      | AMMOS =>
        rw [lastSet, ReadModifyWrite.sets_ammos, Option.or_none]
        rfl

theorem owed_halted (field : Field) {setter : ReadModifyWrite} {program : Calls ErrorMessage}
    (halts : ∀ r next, program ≠ .call r next) (jobs : List ReadModifyWrite) :
    owed field ⟨some (setter, program), jobs⟩ = lastSet ReadModifyWrite.sets field jobs := by
  cases program with
  | returns value => rfl
  | throws error => rfl
  | call r next => exact absurd rfl (halts r next)

theorem Turn.stages (turn : Turn firmware clients P config i after)
    (stages : ∀ j, Stage (clients j) P (config.parties j).running)
    (reads : ∀ setter, P setter (config.world.device (clients i).msr4Channel)) (j : ι) :
    Stage (clients j) P (after.parties j).running := by
  by_cases here : j = i
  · subst here
    cases turn with
    | begins setter jobs idle device parties =>
      rw [parties, Function.update_self]
      exact .of_call setter
    | reads setter jobs implemented running device parties =>
      rw [parties, Function.update_self]
      exact .writing setter implemented _ (reads setter)
    | writes setter jobs implemented snapshot holds running writing device program halts parties =>
      rw [parties, Function.update_self]
      exact .ended setter program halts
    | ends setter program jobs running halts device parties =>
      rw [parties, Function.update_self]
      exact .idle
  · have kept : after.parties j = config.parties j := by
      cases turn with
      | begins setter jobs idle device parties => rw [parties, Function.update_of_ne here]
      | reads setter jobs implemented running device parties =>
        rw [parties, Function.update_of_ne here]
      | writes setter jobs implemented snapshot holds running writing device program halts
          parties =>
        rw [parties, Function.update_of_ne here]
      | ends setter program jobs running halts device parties =>
        rw [parties, Function.update_of_ne here]
    rw [kept]
    exact stages j

/-- A turn that writes: what it does to the device and to what the client owes. -/
structure Writes (firmware : Firmware) (clients : ι → IqClient)
    (P : ReadModifyWrite → ChannelState → Prop) (field : Field) (config : Config ι) (i : ι)
    (after : Config ι) (setter : ReadModifyWrite) (snapshot : ChannelState) : Prop where
  implemented : setter ≠ .udp (.protocol .AMMOS)
  holds : P setter snapshot
  writing : Writing (config.parties i) setter
  device : after.world.device = Function.update config.world.device (clients i).msr4Channel
    (firmware.apply (config.world.device (clients i).msr4Channel) (setter.setting snapshot))
  ended : ∀ Q, Stage (clients i) Q (after.parties i).running
  before : owed field (config.parties i) =
    (lastSet ReadModifyWrite.sets field (config.parties i).jobs).or (setter.sets field)
  now : owed field (after.parties i) = lastSet ReadModifyWrite.sets field (config.parties i).jobs
  kept : ∀ j ≠ i, after.parties j = config.parties j

/-- Only a write changes the device, and only a write reduces what a client owes. -/
theorem Turn.quiet_or_writes (turn : Turn firmware clients P config i after) (field : Field) :
    (after.world.device = config.world.device ∧
      ∀ j, owed field (after.parties j) = owed field (config.parties j)) ∨
    ∃ setter snapshot, Writes firmware clients P field config i after setter snapshot := by
  have elsewhere {party : Client} (parties : after.parties = Function.update config.parties i party)
      (same : owed field party = owed field (config.parties i)) (j : ι) :
      owed field (after.parties j) = owed field (config.parties j) := by
    rw [parties]
    by_cases here : j = i
    · subst here
      rw [Function.update_self, same]
    · rw [Function.update_of_ne here]
  cases turn with
  | begins setter jobs idle device parties =>
    refine .inl ⟨device, elsewhere parties ?_⟩
    rw [owed_call, idle]
    rfl
  | reads setter jobs implemented running device parties =>
    obtain ⟨r, next, running⟩ := running
    refine .inl ⟨device, elsewhere parties ?_⟩
    rw [running]
    rfl
  | ends setter program jobs running halts device parties =>
    refine .inl ⟨device, elsewhere parties ?_⟩
    rw [running, owed_halted field halts]
    rfl
  | writes setter jobs implemented snapshot holds running writing device program halts parties =>
    obtain ⟨r, next, running⟩ := running
    refine .inr ⟨setter, snapshot, implemented, holds, writing, device, ?_, ?_, ?_, ?_⟩
    · intro Q
      rw [parties, Function.update_self]
      exact .ended setter program halts
    · rw [running]
      rfl
    · rw [parties, Function.update_self, running, owed_halted field halts]
    · intro j other
      rw [parties, Function.update_of_ne other]

/-! ## The last write of a field -/

/-- The device has the value and every write under way brings it. -/
structure Settled (clients : ι → IqClient) (rx : MSR4Channel) (field : Field)
    (value : field.Value) (config : Config ι) : Prop where
  device : field.read (config.world.device rx) = value
  stages : ∀ i, Stage (clients i)
    (fun setter snapshot => setter.message = field.message → field.read snapshot = value)
    (config.parties i).running

/-- Only one client writes the field; either it still owes the value, or the value is there. -/
structure Converges (clients : ι → IqClient) (rx : MSR4Channel) (field : Field) (writer : ι)
    (value : field.Value) (config : Config ι) : Prop where
  alone : ∀ other ≠ writer, owed field (config.parties other) = none
  comes : owed field (config.parties writer) = some value ∧
      (∀ i, Stage (clients i) (fun _ _ => True) (config.parties i).running) ∨
    owed field (config.parties writer) = none ∧ Settled clients rx field value config

theorem Stage.carries {field : Field} {value : field.Value} {party : Client}
    (stage : Stage client (fun _ _ => True) party.running)
    (spared : ∀ setter, Writing party setter → setter.message ≠ field.message) :
    Stage client (fun setter snapshot => setter.message = field.message →
      field.read snapshot = value) party.running := by
  generalize state : party.running = running at stage
  cases stage with
  | idle => exact .idle
  | reading setter implemented => exact .reading setter implemented
  | ended setter program halts => exact .ended setter program halts
  | writing setter implemented snapshot =>
    refine .writing setter implemented snapshot fun same => ?_
    exact absurd same (spared setter ⟨_, _, _, state⟩)

variable {rx : MSR4Channel} {field : Field} {writer : ι} {value : field.Value}

omit [DecidableEq ι] in
/-- A client that owes the field nothing owes nothing after a write, which sets no value. -/
theorem Writes.free {P : ReadModifyWrite → ChannelState → Prop} {setter : ReadModifyWrite}
    {snapshot : ChannelState}
    (wrote : Writes firmware clients P field config i after setter snapshot)
    (free : owed field (config.parties i) = none) :
    setter.sets field = none ∧ owed field (after.parties i) = none := by
  rw [wrote.before, Option.or_eq_none_iff] at free
  exact ⟨free.2, wrote.now.trans free.1⟩

omit [DecidableEq ι] in
/-- After a write the field holds what the setter sets, or what it had read. -/
theorem Writes.read {P : ReadModifyWrite → ChannelState → Prop} {setter : ReadModifyWrite}
    {snapshot : ChannelState}
    (wrote : Writes firmware clients P field config i after setter snapshot)
    (channel : (clients i).msr4Channel = rx) : field.read (after.world.device rx) =
      if setter.message = field.message then (setter.sets field).getD (field.read snapshot)
      else field.read (config.world.device rx) := by
  rw [wrote.device, channel, Function.update_self,
    ReadModifyWrite.read_apply firmware _ _ field wrote.implemented]

/-- While the writer owes the value, it still does or its last write has brought it. -/
theorem owing_step (succeeds : ∀ i, (outcomes i).Applied)
    (channel : ∀ i, (clients i).msr4Channel = rx)
    (alone : ∀ other ≠ writer, owed field (config.parties other) = none)
    (owes : owed field (config.parties writer) = some value)
    (stages : ∀ i, Stage (clients i) (fun _ _ => True) (config.parties i).running)
    (undisturbed : Undisturbed field config i)
    (taken : step firmware outcomes clients config i = some after) :
    Converges clients rx field writer value after := by
  have turn := turn_of_step succeeds taken (stages i)
  have nowhere (j : ι) : Stage (clients j) (fun _ _ => True) (after.parties j).running :=
    turn.stages stages (fun _ => trivial) j
  obtain ⟨-, same⟩ | ⟨setter, snapshot, wrote⟩ := turn.quiet_or_writes field
  · exact ⟨fun other apart => (same other).trans (alone other apart),
      .inl ⟨(same writer).trans owes, nowhere⟩⟩
  have others : ∀ other ≠ writer, owed field (after.parties other) = none := by
    intro other apart
    by_cases same : other = i
    · subst same
      exact (wrote.free (alone other apart)).2
    · rw [wrote.kept other same, alone other apart]
  by_cases here : i = writer
  · subst here
    rw [wrote.before] at owes
    cases later : lastSet ReadModifyWrite.sets field (config.parties i).jobs with
    | some last =>
      rw [later, Option.some_or] at owes
      exact ⟨others, .inl ⟨by rw [wrote.now, later, owes], nowhere⟩⟩
    | none =>
      rw [later, Option.none_or] at owes
      have message := ReadModifyWrite.message_of_sets field owes
      refine ⟨others, .inr ⟨wrote.now.trans later, ?_, fun j => ?_⟩⟩
      · rw [wrote.read (channel i), if_pos message, owes, Option.getD_some]
      · by_cases same : j = i
        · subst same
          exact wrote.ended _
        · have assigned : setter.sets field ≠ none := by
            rw [owes]
            exact Option.some_ne_none _
          rw [wrote.kept j same]
          exact (stages j).carries (undisturbed setter wrote.writing assigned later j same)
  · refine ⟨others, .inl ⟨?_, nowhere⟩⟩
    rw [wrote.kept writer (Ne.symm here), owes]

/-- Once nobody owes the field a value, every further write brings back the value it has. -/
theorem settled_step (succeeds : ∀ i, (outcomes i).Applied)
    (channel : ∀ i, (clients i).msr4Channel = rx)
    (nobody : ∀ j, owed field (config.parties j) = none)
    (settled : Settled clients rx field value config)
    (taken : step firmware outcomes clients config i = some after) :
    (∀ j, owed field (after.parties j) = none) ∧ Settled clients rx field value after := by
  have turn := turn_of_step succeeds taken (settled.stages i)
  have stages := turn.stages settled.stages fun _ _ => by rw [channel, settled.device]
  obtain ⟨device, same⟩ | ⟨setter, snapshot, wrote⟩ := turn.quiet_or_writes field
  · exact ⟨fun j => (same j).trans (nobody j), by rw [device, settled.device], stages⟩
  · obtain ⟨unset, free⟩ := wrote.free (nobody i)
    refine ⟨fun j => ?_, ?_, stages⟩
    · by_cases here : j = i
      · rw [here, free]
      · rw [wrote.kept j here, nobody j]
    · rw [wrote.read (channel i), unset, Option.getD_none]
      split
      · rename_i same
        exact wrote.holds same
      · exact settled.device

theorem converges_step (succeeds : ∀ i, (outcomes i).Applied)
    (channel : ∀ i, (clients i).msr4Channel = rx)
    (held : Converges clients rx field writer value config)
    (undisturbed : Undisturbed field config i)
    (taken : step firmware outcomes clients config i = some after) :
    Converges clients rx field writer value after := by
  obtain ⟨alone, ⟨owes, stages⟩ | ⟨free, settled⟩⟩ := held
  · exact owing_step succeeds channel alone owes stages undisturbed taken
  · have nobody (j : ι) : owed field (config.parties j) = none := by
      by_cases here : j = writer
      · rw [here, free]
      · exact alone j here
    obtain ⟨still, settles⟩ := settled_step succeeds channel nobody settled taken
    exact ⟨fun other _ => still other, .inr ⟨still writer, settles⟩⟩

end Turns

theorem Converges.start {ι : Type} (clients : ι → IqClient) (rx : MSR4Channel) {field : Field}
    (writer : ι) (world : World) (scripts : ι → List ReadModifyWrite)
    (alone : ∀ other ≠ writer, lastSet ReadModifyWrite.sets field (scripts other) = none) :
    Converges clients rx field writer ((lastSet ReadModifyWrite.sets field (scripts writer)).getD
      (field.read (world.device rx))) (start world scripts) := by
  refine ⟨alone, ?_⟩
  cases last : lastSet ReadModifyWrite.sets field (scripts writer) with
  | some value => exact .inl ⟨last, fun _ => .idle⟩
  | none => exact .inr ⟨last, rfl, fun _ => .idle⟩

/-- Whatever the schedule, a field that one client sets ends with the last value it was
set to, as long as no other client is between the read and the write of the same message
when that value is written. -/
theorem last_value_held {ι : Type} [DecidableEq ι] (firmware : Firmware) (outcomes : Outcomes)
    (succeeds : ∀ i, (outcomes i).Applied) (clients : ι → IqClient) (rx : MSR4Channel)
    (channel : ∀ i, (clients i).msr4Channel = rx) (scripts : ι → List ReadModifyWrite)
    (world : World) (schedule : List ι) (final : Config ι)
    (finished : run (step firmware outcomes clients) (start world scripts) schedule = some final)
    (done : ∀ i, (final.parties i).Finished) (field : Field) (writer : ι)
    (alone : ∀ other ≠ writer, lastSet ReadModifyWrite.sets field (scripts other) = none)
    (undisturbed : ∀ visit ∈ visits (step firmware outcomes clients) (start world scripts) schedule,
      Undisturbed field visit.1 visit.2) :
    field.read (final.world.device rx) =
      (lastSet ReadModifyWrite.sets field (scripts writer)).getD
        (field.read (world.device rx)) := by
  have converged := run_invariant_of_visits (Undisturbed field)
    (fun held guarded taken => converges_step succeeds channel held guarded taken)
    finished undisturbed (Converges.start clients rx writer world scripts alone)
  have nothing : owed field (final.parties writer) = none := by
    obtain ⟨running, jobs⟩ := done writer
    rw [owed, Party.pending, running, jobs]
    rfl
  obtain ⟨owes, -⟩ | ⟨-, settled⟩ := converged.comes
  · rw [nothing] at owes
    contradiction
  · exact settled.device

/-- One client sets the port twice, the other one a frequency. -/
def portsAndFrequency : Bool → List ReadModifyWrite
  | false => [.udp (.port 6000), .udp (.port 6001)]
  | true => [.rf (.satFrequencyHz 1500000000)]

/-- Each client reads before the other one writes. -/
def overlapping : List Bool :=
  [false, true, false, true, true, false, true, false, false, false, false, false]

theorem overlapping_undisturbed (field : Field) :
    ∀ visit ∈ visits (step storingFirmware (fun _ => .delivered default) fun _ => .create)
      (start ⟨streamingDevice, 0⟩ portsAndFrequency) overlapping,
      Undisturbed field visit.1 visit.2 := by
  -- Each client only ever runs setters of one message.
  have own : ∀ visit ∈ visits (step storingFirmware (fun _ => .delivered default)
      fun _ => .create) (start ⟨streamingDevice, 0⟩ portsAndFrequency) overlapping,
      ∀ i, (visit.1.parties i).running.all fun job =>
        job.1.message = if i then .rfSetting else .udpSetting := by decide
  have runs {visit : Config Bool × Bool} (visited : visit ∈ visits (step storingFirmware
      (fun _ => .delivered default) fun _ => .create) (start ⟨streamingDevice, 0⟩
      portsAndFrequency) overlapping) {i : Bool} {setter : ReadModifyWrite}
      (writing : Writing (visit.1.parties i) setter) :
      setter.message = if i then .rfSetting else .udpSetting := by
    obtain ⟨stub, setting, next, running⟩ := writing
    have message := own visit visited i
    rw [running] at message
    exact of_decide_eq_true message
  intro visit visited setter writing assigned _ other apart disturbing disturbs
  cases sets : setter.sets field with
  | none => exact absurd sets assigned
  | some value =>
    rw [← ReadModifyWrite.message_of_sets field sets, runs visited writing, runs visited disturbs]
    intro same
    revert apart same
    cases other <;> cases visit.2 <;> decide

theorem last_value_held_overlapping :
    ∃ final, run (step storingFirmware (fun _ => .delivered default) fun _ => .create)
        (start ⟨streamingDevice, 0⟩ portsAndFrequency) overlapping = some final ∧
      Field.port.read (final.world.device .Rx1) = (6001 : Int) ∧
      Field.satFrequencyHz.read (final.world.device .Rx1) = (1500000000 : ℚ) := by
  have held := @last_value_held Bool _ storingFirmware (fun _ => .delivered default)
    (fun _ => rfl) (fun _ => .create) .Rx1 (fun _ => rfl) portsAndFrequency
    ⟨streamingDevice, 0⟩ overlapping _ rfl (fun i => by cases i <;> exact ⟨rfl, rfl⟩)
  refine ⟨_, rfl, held .port false ?_ (overlapping_undisturbed .port),
    held .satFrequencyHz true ?_ (overlapping_undisturbed .satFrequencyHz)⟩
  · intro other apart
    cases other with
    | false => exact absurd rfl apart
    | true => rfl
  · intro other apart
    cases other with
    | false => rfl
    | true => exact absurd rfl apart

/-- One client sets the port, the other one the address. -/
def portAndAddress : Bool → List ReadModifyWrite
  | false => [.udp (.port 6000)]
  | true => [.udp (.destinationAddress "10.0.0.7")]

/-- The second client's whole call falls between the read and the write of the first: the
address it set is gone. -/
theorem interleaved_address_lost :
    ∃ final, run (step storingFirmware (fun _ => .delivered default) fun _ => .create)
        (start ⟨streamingDevice, 0⟩ portAndAddress)
        [false, false, true, true, true, true, false, false] = some final ∧
      (∀ i, (final.parties i).Finished) ∧
      (∀ field, lastSet ReadModifyWrite.sets field (portAndAddress false) = none ∨
        lastSet ReadModifyWrite.sets field (portAndAddress true) = none) ∧
      ¬ ∀ field writer, (∀ other ≠ writer,
          lastSet ReadModifyWrite.sets field (portAndAddress other) = none) →
        field.read (final.world.device .Rx1) =
          (lastSet ReadModifyWrite.sets field (portAndAddress writer)).getD
            (field.read (streamingDevice .Rx1)) := by
  refine ⟨_, rfl, fun i => by cases i <;> exact ⟨rfl, rfl⟩, fun field => ?_, fun held => ?_⟩
  · cases field with
    | destinationAddress => exact .inl rfl
    | port => exact .inr rfl
    | protocol => exact .inl rfl
    | streamingStatus => exact .inl rfl
    | satFrequencyHz => exact .inl rfl
    | downFrequencyHz => exact .inl rfl
  · have address := held .destinationAddress true fun other apart => by
      cases other with
      | false => rfl
      | true => exact absurd rfl apart
    exact absurd (show "127.0.0.1" = "10.0.0.7" from address) (by decide)

end SharedDevice
end JerryDriver
