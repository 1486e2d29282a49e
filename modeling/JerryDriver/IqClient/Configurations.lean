import JerryDriver.IqClient.RegisterFile
import JerryDriver.IqClient.SucceedingCalls

/-! Clients that set a device up one after the other, by documents and by single setters,
while every remote call succeeds. Each call is one command to a table of registers, whatever
it throws: a document sets the entries of the channel that it selects. -/
namespace JerryDriver.Configurations
open Interaction Program Registers IqClient

/-- What a channel is set to. The device keeps both quantities of the bandwidth. -/
inductive Entry where
  | single (field : Field)
  | sampleRateHz
  | analysisBandwidthHz

namespace Entry

abbrev Value : Entry → Type
  | .single field => field.Value
  | .sampleRateHz | .analysisBandwidthHz => ℚ

def read (state : ChannelState) : (entry : Entry) → entry.Value
  | .single field => field.read state
  | .sampleRateHz => state.channel.bandwidth.sampleRateHz
  | .analysisBandwidthHz => state.channel.bandwidth.analysisBandwidthHz

/-- The client's getter of an entry. -/
def get (client : IqClient) : (entry : Entry) → Calls entry.Value
  | .single field => field.get client
  | .sampleRateHz => client.getSampleRate
  | .analysisBandwidthHz => client.getAnalysisBandwidth

end Entry

abbrev Register := MSR4Channel × Entry

abbrev Register.Value (r : Register) : Type := r.2.Value

def entries (device : Device) (r : Register) : r.Value := r.2.read (device r.1)

inductive Change where
  | setter (setter : Setter)
  | setMSR4ByJson (path : String)

/-- A call by some client, with the files as they are then. -/
structure Command where
  client : IqClient
  files : String → Option String
  answers : Nat → ErrorMessage
  succeed : Succeeding answers
  change : Change

variable (firmware : Firmware) (json : JsonLibrary)

def Command.perform (device : Device) (command : Command) : Device :=
  let serve := firmware.serve (delivering command.answers)
  match command.change with
  | .setter setter => (run serve ⟨device, 0⟩ (setter.call command.client)).2.device
  | .setMSR4ByJson path =>
    (run serve ⟨device, 0⟩ (command.client.setMSR4ByJson json command.files path)).2.device

/-! ## The table -/

/-- The channel that a document selects, and what it says. -/
def configures (files : String → Option String) (path : String) :
    Option (MSR4Channel × Sections) :=
  match readSections json (JsonParser.getRoot json files path) with
  | .error _ => none
  | .ok sections =>
    (IqClient.selected sections.rxChannel.rxChannel).map fun msr4Channel => (msr4Channel, sections)

abbrev Values := (entry : Entry) → Option entry.Value

/-- The stream is stopped, and the protocol set only by its name. -/
def documentSets (sections : Sections) : Values
  | .single .port => some sections.channel.port
  | .single .destinationAddress => some sections.channel.destinationAddress
  | .single .protocol => if sections.channel.protocol = "HRZR" then some .HRZR else none
  | .single .streamingStatus => some false
  | .single .satFrequencyHz => some (sections.stream.satFrequency : ℚ)
  | .single .downFrequencyHz => some (sections.stream.downFrequency : ℚ)
  | .sampleRateHz => some (firmware.sampleRateHzOf sections.stream.bandwithByAnalysisBandwidth)
  | .analysisBandwidthHz => some (sections.stream.bandwithByAnalysisBandwidth : ℚ)

def setterSets : Setter → Values
  | .modify setter, .single field => setter.sets field
  | .bandwidthBySampleRate value, .sampleRateHz => some value
  | .bandwidthBySampleRate value, .analysisBandwidthHz =>
    some (firmware.analysisBandwidthHzOf value)
  | .bandwidthByAnalysisBandwidth value, .sampleRateHz => some (firmware.sampleRateHzOf value)
  | .bandwidthByAnalysisBandwidth value, .analysisBandwidthHz => some value
  | _, _ => none

/-- The channel that a command goes to, and what it sets there. -/
def Command.target (command : Command) : Option (MSR4Channel × Values) :=
  match command.change with
  | .setter setter => some (command.client.msr4Channel, setterSets firmware setter)
  | .setMSR4ByJson path =>
    (configures json command.files path).map fun target =>
      (target.1, documentSets firmware target.2)

def Command.sets (command : Command) (r : Register) : Option r.Value :=
  match command.target firmware json with
  | none => none
  | some (msr4Channel, values) => if msr4Channel = r.1 then values r.2 else none

variable {firmware json} {device : Device} {command : Command}

/-- A channel's state with these entries set, and its interface kept. -/
structure Sets (before : ChannelState) (values : Values) (after : ChannelState) : Prop where
  entries : ∀ entry : Entry, entry.read after = (values entry).getD (entry.read before)
  sfpInterface : after.udp.sfpInterface = before.udp.sfpInterface

/-- Of the device one channel is changed, or none. -/
def Changes (before : Device) (target : Option (MSR4Channel × Values)) (after : Device) : Prop :=
  match target with
  | none => after = before
  | some (msr4Channel, values) =>
    ∃ state, after = Function.update before msr4Channel state ∧
      Sets (before msr4Channel) values state

/-- Such a change is one command to the table. -/
theorem Changes.store {after : Device}
    (changes : Changes device (command.target firmware json) after) :
    entries after = store (Command.sets firmware json) (entries device) command ∧
      ∀ rx, (after rx).udp.sfpInterface = (device rx).udp.sfpInterface := by
  cases target : command.target firmware json with
  | none =>
    rw [target] at changes
    cases changes
    refine ⟨?_, fun _ => rfl⟩
    funext r
    simp only [Registers.store, Command.sets, target, Option.getD_none]
  | some goal =>
    rw [target] at changes
    obtain ⟨state, rfl, sets⟩ := changes
    constructor
    · funext r
      obtain ⟨other, entry⟩ := r
      simp only [entries, Registers.store, Command.sets, target]
      by_cases here : goal.1 = other
      · subst here
        rw [Function.update_self, if_pos rfl, sets.entries]
      · rw [Function.update_of_ne (Ne.symm here), if_neg here]
        rfl
    · intro rx
      by_cases here : rx = goal.1
      · subst here
        rw [Function.update_self, sets.sfpInterface]
      · rw [Function.update_of_ne here]

/-! ## The commands -/

theorem written_sets (sections : Sections) (state : ChannelState) :
    Sets state (documentSets firmware sections)
      (written firmware sections.stream sections.channel state) := by
  refine ⟨fun entry => ?_, rfl⟩
  cases entry with
  | sampleRateHz | analysisBandwidthHz => rfl
  | single field =>
    cases field with
    | port | destinationAddress | satFrequencyHz | downFrequencyHz => rfl
    | streamingStatus => exact written_isStreaming ..
    | protocol =>
      simp only [Entry.read, Field.read, written, documentSets]
      split <;> rfl

theorem selects_iff {files : String → Option String} {path : String} {sections : Sections}
    {rx : MSR4Channel} : Selects json (JsonParser.getRoot json files path) sections rx ↔
      configures json files path = some (rx, sections) := by
  unfold configures
  constructor
  · rintro ⟨read, chosen⟩
    rw [read]
    simp only [chosen, Option.map_some]
  · intro target
    cases read : readSections json (JsonParser.getRoot json files path) with
    | error thrown =>
      rw [read] at target
      contradiction
    | ok other =>
      rw [read] at target
      obtain ⟨msr4Channel, chosen, same⟩ := Option.map_eq_some_iff.mp target
      cases same
      exact ⟨read, chosen⟩

theorem document_changes {files : String → Option String} {answers : Nat → ErrorMessage}
    (succeed : Succeeding answers) (client : IqClient) (path : String) :
    Changes device ((configures json files path).map fun target =>
        (target.1, documentSets firmware target.2))
      (run (firmware.serve (delivering answers)) ⟨device, 0⟩
        (client.setMSR4ByJson json files path)).2.device := by
  cases target : configures json files path with
  | none =>
    obtain ⟨thrown, performs⟩ := @performs_nothing firmware answers device client json files path
      fun sections rx chosen => by
        rw [selects_iff.mp chosen] at target
        contradiction
    obtain ⟨calls, ran⟩ := (performs .Rx1).ran
    rw [ran]
    exact Function.update_eq_self ..
  | some goal =>
    obtain ⟨rx, sections⟩ := goal
    obtain ⟨configured, -, performs⟩ := @performs_configuration firmware answers device client rx
      json files path sections succeed (selects_iff.mpr target)
    obtain ⟨calls, ran⟩ := performs.ran
    rw [ran]
    refine ⟨_, rfl, ?_⟩
    rw [store_configurationEdits]
    exact written_sets sections _

theorem modify_sets (setter : ReadModifyWrite) (state : ChannelState)
    (implemented : setter ≠ .udp (.protocol .AMMOS)) :
    Sets state (setterSets firmware (.modify setter))
      (firmware.apply state (setter.setting state)) := by
  refine ⟨fun entry => ?_, ReadModifyWrite.sfpInterface_apply ..⟩
  cases entry with
  | sampleRateHz | analysisBandwidthHz => cases setter <;> rfl
  | single field =>
    refine (ReadModifyWrite.read_apply firmware state state field implemented).trans ?_
    split
    · rfl
    · rename_i apart
      cases assigned : setter.sets field with
      | none => simp only [setterSets, assigned, Option.getD_none, Entry.read]
      | some value => exact absurd (ReadModifyWrite.message_of_sets field assigned) apart

theorem setter_changes {answers : Nat → ErrorMessage} (succeed : Succeeding answers)
    (client : IqClient) (setter : Setter) :
    Changes device (some (client.msr4Channel, setterSets firmware setter))
      (run (firmware.serve (delivering answers)) ⟨device, 0⟩ (setter.call client)).2.device := by
  have accepted (setting : Setting) : answered firmware device client (answers 0) setting =
      Function.update device client.msr4Channel
        (firmware.apply (device client.msr4Channel) setting) := if_pos (succeed 0)
  cases setter with
  | modify setter =>
    by_cases refused : setter = .udp (.protocol .AMMOS)
    · subst refused
      refine ⟨device client.msr4Channel, (Function.update_eq_self ..).symm, fun entry => ?_, rfl⟩
      cases entry with
      | single field => rw [setterSets, ReadModifyWrite.sets_ammos, Option.getD_none]
      | sampleRateHz | analysisBandwidthHz => rfl
    · have applied : ∀ i, (delivering answers i).Applied := succeed
      exact ⟨_, run_modify_device firmware applied ⟨device, 0⟩ client refused,
        modify_sets setter _ refused⟩
  | bandwidthBySampleRate value =>
    refine ⟨_, accepted (.setBandwidthSettingBySampleRate ⟨value⟩), fun entry => ?_, rfl⟩
    cases entry <;> rfl
  | bandwidthByAnalysisBandwidth value =>
    refine ⟨_, accepted (.setBandwidthSettingByAnalysisBandwidth ⟨value⟩), fun entry => ?_, rfl⟩
    cases entry <;> rfl

theorem perform_changes (device : Device) (command : Command) :
    Changes device (command.target firmware json) (command.perform firmware json device) := by
  obtain ⟨client, files, answers, succeed, change⟩ := command
  cases change with
  | setter setter => exact setter_changes succeed client setter
  | setMSR4ByJson path => exact document_changes succeed client path

theorem performAll_entries (device : Device) (commands : List Command) :
    entries (commands.foldl (Command.perform firmware json) device) =
        commands.foldl (store (Command.sets firmware json)) (entries device) ∧
      ∀ rx, ((commands.foldl (Command.perform firmware json) device) rx).udp.sfpInterface =
        (device rx).udp.sfpInterface := by
  induction commands generalizing device with
  | nil => exact ⟨rfl, fun _ => rfl⟩
  | cons command rest ih =>
    obtain ⟨stored, kept⟩ := (@perform_changes firmware json device command).store
    obtain ⟨later, same⟩ := ih (command.perform firmware json device)
    rw [List.foldl_cons, List.foldl_cons, later, stored]
    exact ⟨rfl, fun rx => (same rx).trans (kept rx)⟩

theorem run_get {answers : Nat → ErrorMessage} (device : Device) (client : IqClient)
    (entry : Entry) :
    run (firmware.serve (delivering answers)) ⟨device, 0⟩ (entry.get client) =
      (.ok (entries device (client.msr4Channel, entry)), ⟨device, 1⟩) := by
  cases entry with
  | single field => exact field.run_get firmware device client rfl
  | sampleRateHz | analysisBandwidthHz =>
    exact run_readChannelSetting firmware (delivering answers) device 0 client _

/-- Whichever clients set the device up, and by whichever documents and setters, each entry of
each channel holds the last value that one of them gave to it there, or the one it had. The
interfaces are kept, and every client's getters return what its channel holds. -/
theorem entries_hold_last_set (firmware : Firmware) (json : JsonLibrary) (device : Device)
    (commands : List Command) :
    let after := commands.foldl (Command.perform firmware json) device
    let value (r : Register) : r.Value :=
      (lastSet (Command.sets firmware json) r commands).getD (entries device r)
    (∀ r : Register, entries after r = value r) ∧
    (∀ rx, (after rx).udp.sfpInterface = (device rx).udp.sfpInterface) ∧
    ∀ (client : IqClient) (answers : Nat → ErrorMessage) (entry : Entry),
      run (firmware.serve (delivering answers)) ⟨after, 0⟩ (entry.get client) =
        (.ok (value (client.msr4Channel, entry)), ⟨after, 1⟩) := by
  intro after value
  obtain ⟨stored, kept⟩ := @performAll_entries firmware json device commands
  have held (r : Register) : entries after r = value r := by
    rw [stored, foldl_store]
  refine ⟨held, kept, fun client answers entry => ?_⟩
  rw [run_get, held]

def exampleCommand : Command where
  client := .create
  files := exampleFiles
  answers _ := default
  succeed _ := rfl
  change := .setMSR4ByJson "configFiles/example.json"

def setterCommand (msr4Channel : MSR4Channel) (setter : Setter) : Command where
  client := { IqClient.create with msr4Channel }
  files _ := none
  answers _ := default
  succeed _ := rfl
  change := .setter setter

/-- A document for channel 1, then a port for it, and a sample rate for channel 2. -/
def documentAndSetters : List Command :=
  [exampleCommand, setterCommand .Rx1 (.modify (.udp (.port 6000))),
    setterCommand .Rx2 (.bandwidthBySampleRate 1000000)]

theorem exampleCommand_target : exampleCommand.target storingFirmware exampleLibrary =
    some (.Rx1, documentSets storingFirmware (exampleSections 1 "HRZR")) := by
  have document : configures exampleLibrary exampleFiles "configFiles/example.json" =
      some (.Rx1, exampleSections 1 "HRZR") := by
    rw [configures, getRoot_exampleFiles]
    rfl
  simp only [exampleCommand, Command.target, document, Option.map_some]

theorem entries_hold_document_and_setters :
    let after := documentAndSetters.foldl (Command.perform storingFirmware exampleLibrary)
      streamingDevice
    entries after (.Rx1, .single .port) = (6000 : Int) ∧
    entries after (.Rx1, .single .streamingStatus) = false ∧
    entries after (.Rx1, .analysisBandwidthHz) = (194100000 : ℚ) ∧
    entries after (.Rx2, .sampleRateHz) = (1000000 : ℚ) ∧
    entries after (.Rx2, .single .port) = entries streamingDevice (.Rx2, .single .port) := by
  have held := (entries_hold_last_set storingFirmware exampleLibrary streamingDevice
    documentAndSetters).1
  refine ⟨?_, ?_, ?_, ?_, ?_⟩
  all_goals
    rw [held]
    simp only [documentAndSetters, lastSet, Command.sets, exampleCommand_target]
    rfl

end JerryDriver.Configurations
