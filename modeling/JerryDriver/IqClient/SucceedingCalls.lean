import JerryDriver.IqClient.JsonContract

/-! A configuration by JSON when every remote call succeeds: each one is delivered and
every setter is answered with error code 0. What is sent and what the selected channel
becomes is then told by the document and the channel's state alone. -/
namespace JerryDriver.IqClient
open Interaction Program

def Succeeding (answers : Nat → ErrorMessage) : Prop := ∀ call, (answers call).errorCode = 0

/-- A setting on its way to the device, with the state its channel is in. -/
structure Sent where
  current : ChannelState
  setting : Setting

def sentBy : World × Request → Option Sent
  | (world, .set stub setting) => some ⟨world.device stub.msr4Channel, setting⟩
  | (_, .login _ _) | (_, .getChannelSetting _) | (_, .getUDPSetting _) => none

def sent {α : Type} (server : World → (request : Request) → Reply request.Message × World)
    (world : World) (program : Calls α) : List Sent :=
  (trace server world program).filterMap sentBy

/-- What a setter makes of its channel's state. -/
abbrev Edit := ChannelState → Setting

def store (firmware : Firmware) (state : ChannelState) (edits : List Edit) : ChannelState :=
  edits.foldl (fun state edit => firmware.apply state (edit state)) state

def storing (firmware : Firmware) (state : ChannelState) : List Edit → List Sent
  | [] => []
  | edit :: rest =>
    ⟨state, edit state⟩ :: storing firmware (firmware.apply state (edit state)) rest

variable {firmware : Firmware} {answers : Nat → ErrorMessage} {device : Device} {calls : Nat}
  {client : IqClient} {msr4Channel : MSR4Channel} {α β : Type}
  {server : World → (request : Request) → Reply request.Message × World} {before : World}

theorem store_append (state : ChannelState) (first second : List Edit) :
    store firmware state (first ++ second) = store firmware (store firmware state first) second :=
  List.foldl_append

theorem storing_append (state : ChannelState) (first second : List Edit) :
    storing firmware state (first ++ second) =
      storing firmware state first ++ storing firmware (store firmware state first) second := by
  induction first generalizing state with
  | nil => rfl
  | cons edit rest ih => exact congrArg (_ :: ·) (ih _)

theorem sent_bind_ok {program : Calls α} {value : α} {after : World} (f : α → Calls β)
    (ran : run server before program = (.ok value, after)) :
    sent server before (program >>= f) =
      sent server before program ++ sent server after (f value) := by
  rw [sent, trace_bind_ok f ran, List.filterMap_append]
  rfl

theorem sent_bind_error {program : Calls α} {thrown : Thrown} {after : World} (f : α → Calls β)
    (ran : run server before program = (.error thrown, after)) :
    sent server before (program >>= f) = sent server before program := by
  rw [sent, trace_bind_error f ran]
  rfl

/-- The program ends in this way, makes these edits to a channel and sends nothing else. -/
structure Performs (firmware : Firmware) (answers : Nat → ErrorMessage)
    (msr4Channel : MSR4Channel) (before : World) (program : Calls α) (result : Except Thrown α)
    (edits : List Edit) : Prop where
  ran : ∃ calls, run (firmware.serve (delivering answers)) before program =
    (result, ⟨Function.update before.device msr4Channel
      (store firmware (before.device msr4Channel) edits), calls⟩)
  sends : sent (firmware.serve (delivering answers)) before program =
    storing firmware (before.device msr4Channel) edits

/-- A program that only reads. -/
theorem Performs.reads {program : Calls α} {result : Except Thrown α} {calls : Nat}
    (ran : run (firmware.serve (delivering answers)) before program =
      (result, ⟨before.device, calls⟩))
    (silent : sent (firmware.serve (delivering answers)) before program = []) :
    Performs firmware answers msr4Channel before program result [] where
  ran := ⟨calls, by rw [ran, store, List.foldl_nil, Function.update_eq_self]⟩
  sends := silent

theorem Performs.pure (value : α) :
    Performs firmware answers msr4Channel before (pure value) (.ok value) [] :=
  .reads rfl rfl

theorem Performs.throws (thrown : Thrown) :
    Performs firmware answers msr4Channel before (.throws thrown : Calls α) (.error thrown) [] :=
  .reads rfl rfl

theorem Performs.bind {program : Calls α} {f : α → Calls β} {value : α} {result : Except Thrown β}
    {first second : List Edit}
    (head : Performs firmware answers msr4Channel before program (.ok value) first)
    (tail : ∀ calls, Performs firmware answers msr4Channel
      ⟨Function.update before.device msr4Channel
        (store firmware (before.device msr4Channel) first), calls⟩ (f value) result second) :
    Performs firmware answers msr4Channel before (program >>= f) result (first ++ second) := by
  obtain ⟨calls, ran⟩ := head.ran
  obtain ⟨last, later⟩ := (tail calls).ran
  have sends := (tail calls).sends
  simp only [Function.update_self, Function.update_idem] at later sends
  constructor
  · refine ⟨last, ?_⟩
    rw [run_bind_ok f ran, later, store_append]
  · rw [sent_bind_ok f ran, head.sends, sends, storing_append]

theorem Performs.bind_throws {program : Calls α} (f : α → Calls β) {thrown : Thrown}
    {edits : List Edit}
    (head : Performs firmware answers msr4Channel before program (.error thrown) edits) :
    Performs firmware answers msr4Channel before (program >>= f) (.error thrown) edits := by
  obtain ⟨calls, ran⟩ := head.ran
  exact ⟨⟨calls, run_bind_error f ran⟩, (sent_bind_error f ran).trans head.sends⟩

/-- A setter that is answered with error code 0, checked or not. -/
theorem Performs.write {setter : Calls ErrorMessage} {err : ErrorMessage} {edits : List Edit}
    (performs : Performs firmware answers msr4Channel before setter (.ok err) edits)
    (accepted : err.errorCode = 0) :
    Performs firmware answers msr4Channel before (checked setter) (.ok ()) edits ∧
      Performs firmware answers msr4Channel before (unchecked setter) (.ok ()) edits := by
  constructor
  · rw [← List.append_nil edits]
    refine performs.bind fun calls => ?_
    rw [if_neg (not_not.mpr accepted)]
    exact .pure ()
  · rw [← List.append_nil edits]
    exact performs.bind fun calls => .pure ()

/-! ## The setters of a configuration -/

theorem Performs.writing (succeed : Succeeding answers) (writing : Writing) :
    Performs firmware answers client.msr4Channel before (writing.setter client)
      (.ok (answers (before.calls + writing.reads))) [writing.setting] where
  ran := by
    have ran := writing.run_setter firmware answers before.device before.calls client
    rw [answered, if_pos (succeed _)] at ran
    exact ⟨_, ran⟩
  sends := by
    cases writing <;> rfl

theorem performs_checkAll (succeed : Succeeding answers) (writings : List Writing) :
    Performs firmware answers client.msr4Channel before (Writing.checkAll client writings) (.ok ())
      (writings.map Writing.setting) := by
  induction writings generalizing before with
  | nil => exact .pure ()
  | cons writing rest ih =>
    exact ((Performs.writing succeed writing).write (succeed _)).1.bind fun _ => ih

/-- The stop, where the channel streams. -/
def stopEdits (stream : JsonParser.StreamingStruct) (channel : JsonParser.ChannelStruct)
    (state : ChannelState) : List Edit :=
  if state.udp.isStreaming then [(Item.isStreaming.writing stream channel).setting] else []

def settingsEdits (stream : JsonParser.StreamingStruct) (channel : JsonParser.ChannelStruct) :
    List Edit := (settings stream channel).map Writing.setting

theorem performs_stopStreaming (succeed : Succeeding answers)
    (stream : JsonParser.StreamingStruct) (channel : JsonParser.ChannelStruct) :
    Performs firmware answers client.msr4Channel before client.stopStreaming (.ok ())
      (stopEdits stream channel (before.device client.msr4Channel)) := by
  have looks : Performs firmware answers client.msr4Channel before client.getStreamingStatus
      (.ok (before.device client.msr4Channel).udp.isStreaming) [] :=
    .reads rfl rfl
  have stops {before : World} (streaming : Bool) :
      Performs firmware answers client.msr4Channel before
        (if streaming then unchecked (client.setStreamingStatus false) else return ()) (.ok ())
        (if streaming then [(Item.isStreaming.writing stream channel).setting] else []) := by
    cases streaming with
    | false => exact .pure ()
    | true => exact ((Performs.writing succeed (Item.isStreaming.writing stream channel)).write
        (succeed _)).2
  exact looks.bind fun calls => stops _

theorem performs_setSettings (succeed : Succeeding answers)
    (stream : JsonParser.StreamingStruct) (channel : JsonParser.ChannelStruct) :
    Performs firmware answers client.msr4Channel before (client.setSettings stream channel)
      (.ok ()) (settingsEdits stream channel) := by
  rw [setSettings_eq]
  exact performs_checkAll succeed _

/-- After the settings the protocol is requested, or refused without a call. -/
def protocolEdits (stream : JsonParser.StreamingStruct) (channel : JsonParser.ChannelStruct) :
    List Edit :=
  if channel.protocol = "HRZR" then [(Item.protocol.writing stream channel).setting] else []

def configurationEdits (stream : JsonParser.StreamingStruct) (channel : JsonParser.ChannelStruct)
    (state : ChannelState) : List Edit :=
  stopEdits stream channel state ++
    (settingsEdits stream channel ++ protocolEdits stream channel)

/-- How a configuration ends that comes to the settings. -/
def ending (client : IqClient) (protocol : String) : Except Thrown IqClient :=
  if protocol = "HRZR" then .ok client
  else .error (.notImplementedException "AMMOS Protocol not yet implemented.")

theorem performs_protocol (succeed : Succeeding answers)
    (stream : JsonParser.StreamingStruct) (channel : JsonParser.ChannelStruct) :
    Performs firmware answers client.msr4Channel before
      (do client.setProtocolByName channel.protocol; return client)
      (ending client channel.protocol) (protocolEdits stream channel) := by
  unfold setProtocolByName protocolEdits ending
  by_cases named : channel.protocol = "HRZR"
  · simp only [named, if_true]
    exact ((Performs.writing succeed (Item.protocol.writing stream channel)).write
      (succeed _)).2.bind fun _ => .pure client
  · simp only [named, if_false]
    exact .bind_throws _ (.throws _)

theorem performs_configureChannel (succeed : Succeeding answers)
    (stream : JsonParser.StreamingStruct) (channel : JsonParser.ChannelStruct) :
    Performs firmware answers client.msr4Channel before (client.configureChannel stream channel)
      (ending client channel.protocol)
      (configurationEdits stream channel (before.device client.msr4Channel)) := by
  refine (performs_stopStreaming succeed stream channel).bind fun _ => ?_
  exact (performs_setSettings succeed stream channel).bind fun _ =>
    performs_protocol succeed stream channel

/-- The channel after these edits. -/
def written (firmware : Firmware) (stream : JsonParser.StreamingStruct)
    (channel : JsonParser.ChannelStruct) (state : ChannelState) : ChannelState where
  udp := { state.udp with
    port := channel.port
    destinationAddress := channel.destinationAddress
    protocol := if channel.protocol = "HRZR" then .HRZR else state.udp.protocol
    base := if state.udp.isStreaming then some ⟨false⟩ else state.udp.base }
  channel := {
    rfSetting := some ⟨stream.satFrequency, stream.downFrequency⟩
    bandwidthSetting := some ⟨firmware.sampleRateHzOf stream.bandwithByAnalysisBandwidth,
      stream.bandwithByAnalysisBandwidth⟩ }

theorem written_isStreaming (stream : JsonParser.StreamingStruct)
    (channel : JsonParser.ChannelStruct) (state : ChannelState) :
    (written firmware stream channel state).udp.isStreaming = false := by
  have base : (written firmware stream channel state).udp.base =
    if state.udp.isStreaming then some ⟨false⟩ else state.udp.base := rfl
  rw [UdpSetting.isStreaming, base]
  cases streaming : state.udp.isStreaming with
  | false => exact streaming
  | true => rfl

theorem store_configurationEdits (firmware : Firmware) (stream : JsonParser.StreamingStruct)
    (channel : JsonParser.ChannelStruct) (state : ChannelState) :
    store firmware state (configurationEdits stream channel state) =
      written firmware stream channel state := by
  by_cases named : channel.protocol = "HRZR" <;> cases streaming : state.udp.isStreaming <;>
    simp [store, configurationEdits, stopEdits, settingsEdits, protocolEdits, settings,
      Item.writing, Writing.setting, Firmware.apply, Firmware.applyUdp,
      firmware.sfpInterface_self, ChannelSetting.rf, written, named, streaming]

/-! ## The whole configuration -/

/-- The document can be read, and selects a channel. -/
structure Selects (json : JsonLibrary) (root : json.Value) (sections : Sections)
    (msr4Channel : MSR4Channel) : Prop where
  read : readSections json root = .ok sections
  selected : selected sections.rxChannel.rxChannel = some msr4Channel

variable {json : JsonLibrary} {files : String → Option String} {path : String}
  {sections : Sections}

theorem performs_login (login : JsonParser.LoginStruct) :
    ∃ user : IqClient, ∀ msr4Channel,
      Performs firmware answers msr4Channel ⟨device, calls⟩ (client.login login) (.ok user) [] := by
  obtain ⟨user, loggedIn⟩ := run_login firmware answers device calls client login
  exact ⟨user, fun _ => .reads loggedIn rfl⟩

/-- Without a channel to configure the configuration throws and sends nothing. -/
theorem performs_nothing (unselected : ∀ sections msr4Channel,
    ¬ Selects json (JsonParser.getRoot json files path) sections msr4Channel) :
    ∃ thrown, ∀ msr4Channel, Performs firmware answers msr4Channel ⟨device, 0⟩
      (client.setMSR4ByJson json files path) (.error thrown) [] := by
  rw [setMSR4ByJson_eq]
  cases read : readSections json (JsonParser.getRoot json files path) with
  | error thrown => exact ⟨thrown, fun _ => .throws thrown⟩
  | ok sections =>
    have none : selected sections.rxChannel.rxChannel = none :=
      Option.eq_none_iff_forall_ne_some.mpr fun msr4Channel selects =>
        unselected sections msr4Channel ⟨read, selects⟩
    obtain ⟨user, login⟩ :=
      @performs_login firmware answers device 0 client sections.login
    refine ⟨.notImplementedException "Invalid channel. RxChannel only accepts \"[1-4]\"",
      fun msr4Channel => (login msr4Channel).bind fun _ => ?_⟩
    rw [selectRxChannel_eq, none]
    exact .bind_throws _ (.throws _)

/-- Otherwise it makes the document's edits to the channel that the document selects. -/
theorem performs_configuration (succeed : Succeeding answers)
    (selects : Selects json (JsonParser.getRoot json files path) sections msr4Channel) :
    ∃ configured : IqClient, configured.msr4Channel = msr4Channel ∧
      Performs firmware answers msr4Channel ⟨device, 0⟩ (client.setMSR4ByJson json files path)
        (ending configured sections.channel.protocol)
        (configurationEdits sections.stream sections.channel (device msr4Channel)) := by
  obtain ⟨user, login⟩ := @performs_login firmware answers device 0 client sections.login
  refine ⟨user.setRxChannel msr4Channel, rfl, ?_⟩
  rw [setMSR4ByJson_eq, selects.read, ofExcept_ok_bind]
  refine (login msr4Channel).bind fun calls => ?_
  have state : (Function.update device msr4Channel
      (store firmware (device msr4Channel) [])) = device := Function.update_eq_self ..
  have configures := @performs_configureChannel firmware answers (user.setRxChannel msr4Channel)
    ⟨device, calls⟩ succeed sections.stream sections.channel
  rw [selectRxChannel_eq, selects.selected, state]
  exact configures

end JerryDriver.IqClient
