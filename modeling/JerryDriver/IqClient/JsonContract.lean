import JerryDriver.IqClient.CheckedWrites

/-! What a device is set to after a configuration by JSON that did not throw, when every
call is delivered. Five of the answers are checked; those to stopping the stream and to
the protocol are dropped. -/
namespace JerryDriver
open Interaction Program

namespace IqClient

/-- What a configuration sets. -/
inductive Item where
  | isStreaming
  | satFrequency
  | downFrequency
  | bandwidth
  | port
  | destinationAddress
  | protocol

def Item.writing (stream : JsonParser.StreamingStruct) (channel : JsonParser.ChannelStruct) :
    Item → Writing
  | .isStreaming => .udp fun mySetting => { mySetting with base := some ⟨false⟩ }
  | .satFrequency => .rf fun rf =>
    { satFrequencyHz := stream.satFrequency, downFrequencyHz := rf.downFrequencyHz }
  | .downFrequency => .rf fun rf =>
    { satFrequencyHz := rf.satFrequencyHz, downFrequencyHz := stream.downFrequency }
  | .bandwidth =>
    .direct (.setBandwidthSettingByAnalysisBandwidth ⟨stream.bandwithByAnalysisBandwidth⟩)
  | .port => .udp fun mySetting => { mySetting with port := channel.port }
  | .destinationAddress => .udp fun mySetting =>
    { mySetting with destinationAddress := channel.destinationAddress }
  | .protocol => .udp fun mySetting => { mySetting with protocol := .HRZR }

/-- The writes that are checked, in their order. -/
def settings (stream : JsonParser.StreamingStruct) (channel : JsonParser.ChannelStruct) :
    List Writing :=
  [Item.satFrequency, .downFrequency, .bandwidth, .port, .destinationAddress].map
    (Item.writing stream channel)

section Stages

variable (firmware : Firmware) (answers : Nat → ErrorMessage) (device : Device) (calls : Nat)
  (client : IqClient)

theorem setSettings_eq (stream : JsonParser.StreamingStruct)
    (channel : JsonParser.ChannelStruct) :
    client.setSettings stream channel = Writing.checkAll client (settings stream channel) := by
  simp only [settings, List.map_cons, List.map_nil, Writing.checkAll, bind_pure_unit]
  rfl

/-- The channel has the document's values, and is otherwise as it was where the rest of
the configuration looks. -/
structure Settled (stream : JsonParser.StreamingStruct) (channel : JsonParser.ChannelStruct)
    (before now : ChannelState) : Prop where
  satFrequency : now.channel.rf.satFrequencyHz = stream.satFrequency
  downFrequency : now.channel.rf.downFrequencyHz = stream.downFrequency
  bandwidth : now.channel.bandwidth.analysisBandwidthHz = stream.bandwithByAnalysisBandwidth
  port : now.udp.port = channel.port
  destinationAddress : now.udp.destinationAddress = channel.destinationAddress
  protocol : now.udp.protocol = before.udp.protocol
  isStreaming : now.udp.isStreaming = before.udp.isStreaming

/-- No later setting undoes an earlier one. -/
theorem settled_applyAll (stream : JsonParser.StreamingStruct)
    (channel : JsonParser.ChannelStruct) (state : ChannelState) :
    Settled stream channel state
      (Writing.applyAll firmware state (settings stream channel)) :=
  ⟨rfl, rfl, rfl, rfl, rfl, rfl, rfl⟩

/-- The calls, counted from the first setter's read, whose answers are checked. -/
def checkedCalls : List Nat := [1, 3, 4, 6, 8]

theorem run_setSettings (stream : JsonParser.StreamingStruct)
    (channel : JsonParser.ChannelStruct) :
    (∃ after, run (firmware.serve (delivering answers)) ⟨device, calls⟩
        (client.setSettings stream channel) = (.ok (), ⟨after, calls + 9⟩) ∧
      (∀ k ∈ checkedCalls, (answers (calls + k)).errorCode = 0) ∧
      Settled stream channel (device client.msr4Channel) (after client.msr4Channel)) ∨
    (∃ thrown after, run (firmware.serve (delivering answers)) ⟨device, calls⟩
        (client.setSettings stream channel) = (.error thrown, after) ∧
      ∃ k ∈ checkedCalls, (answers (calls + k)).errorCode ≠ 0) := by
  have writing : Writing.writingCalls calls (settings stream channel) =
      checkedCalls.map (calls + ·) := rfl
  have next : Writing.nextCall calls (settings stream channel) = calls + 9 := rfl
  rw [setSettings_eq]
  rcases Writing.run_checkAll firmware answers device calls client (settings stream channel) with
    ⟨after, finished, accepted, state⟩ | ⟨thrown, after, threw, call, checked_, refused⟩
  · rw [writing, List.forall_mem_map] at accepted
    rw [next] at finished
    refine .inl ⟨after, finished, accepted, ?_⟩
    rw [state]
    exact settled_applyAll firmware stream channel _
  · rw [writing, List.mem_map] at checked_
    obtain ⟨k, present, rfl⟩ := checked_
    exact .inr ⟨thrown, after, threw, k, present, refused⟩

theorem run_login (login : JsonParser.LoginStruct) :
    ∃ after, run (firmware.serve (delivering answers)) ⟨device, calls⟩ (client.login login) =
      (.ok after, ⟨device, calls + 1⟩) := ⟨_, rfl⟩

def selected : Int → Option MSR4Channel
  | 1 => some .Rx1
  | 2 => some .Rx2
  | 3 => some .Rx3
  | 4 => some .Rx4
  | _ => none

theorem selectRxChannel_eq (rxChannel : Int) :
    client.selectRxChannel rxChannel =
      match selected rxChannel with
      | some msr4Channel => return client.setRxChannel msr4Channel
      | none => .throws (.notImplementedException
          "Invalid channel. RxChannel only accepts \"[1-4]\"") := by
  unfold selectRxChannel
  split
  · rfl
  · rfl
  · rfl
  · rfl
  · have unselected : selected rxChannel = none := by
      unfold selected
      split <;> first | contradiction | rfl
    rw [unselected]

/-- How many calls stopping takes: looking, and where it streams, reading and writing. -/
def stopCalls (state : ChannelState) : Nat := if state.udp.isStreaming then 3 else 1

/-- Afterwards the channel streams only if it did and the device refused to stop. -/
theorem run_stopStreaming :
    ∃ after, run (firmware.serve (delivering answers)) ⟨device, calls⟩ client.stopStreaming =
        (.ok (), ⟨after, calls + stopCalls (device client.msr4Channel)⟩) ∧
      (after client.msr4Channel).udp.protocol = (device client.msr4Channel).udp.protocol ∧
      ((after client.msr4Channel).udp.isStreaming = false ↔
        ((device client.msr4Channel).udp.isStreaming = true →
          (answers (calls + 2)).errorCode = 0)) := by
  have looked : run (firmware.serve (delivering answers)) ⟨device, calls⟩
      client.getStreamingStatus =
      (.ok (device client.msr4Channel).udp.isStreaming, ⟨device, calls + 1⟩) := rfl
  rw [stopStreaming, run_bind_ok _ looked, stopCalls]
  cases streaming : (device client.msr4Channel).udp.isStreaming with
  | false => exact ⟨device, rfl, rfl, by simp [streaming]⟩
  | true =>
    have stop : run (firmware.serve (delivering answers)) ⟨device, calls + 1⟩
      (client.setStreamingStatus false) = _ := run_modifyUdpSetting_delivering ..
    refine ⟨_, run_unchecked stop, ?_⟩
    by_cases zero : (answers (calls + 1 + 1)).errorCode = 0
    · rw [answered, if_pos zero, Function.update_self]
      exact ⟨rfl, iff_of_true rfl fun _ => zero⟩
    · rw [answered, if_neg zero, streaming]
      exact ⟨rfl, by simp [zero]⟩

theorem run_setProtocolByName {protocol : String} (named : protocol = "HRZR") :
    ∃ after, run (firmware.serve (delivering answers)) ⟨device, calls⟩
        (client.setProtocolByName protocol) = (.ok (), ⟨after, calls + 2⟩) ∧
      (after client.msr4Channel).channel = (device client.msr4Channel).channel ∧
      (after client.msr4Channel).udp.port = (device client.msr4Channel).udp.port ∧
      (after client.msr4Channel).udp.destinationAddress =
        (device client.msr4Channel).udp.destinationAddress ∧
      (after client.msr4Channel).udp.isStreaming =
        (device client.msr4Channel).udp.isStreaming ∧
      ((after client.msr4Channel).udp.protocol = .HRZR ↔
        (device client.msr4Channel).udp.protocol = .HRZR ∨
          (answers (calls + 1)).errorCode = 0) := by
  have request : run (firmware.serve (delivering answers)) ⟨device, calls⟩
    (client.setProtocol .HRZR) = _ := run_modifyUdpSetting_delivering ..
  rw [setProtocolByName, if_pos named]
  refine ⟨_, run_unchecked request, ?_⟩
  by_cases zero : (answers (calls + 1)).errorCode = 0
  · rw [answered, if_pos zero, Function.update_self]
    exact ⟨rfl, rfl, rfl, rfl, iff_of_true rfl (.inr zero)⟩
  · rw [answered, if_neg zero, or_iff_left zero]
    exact ⟨rfl, rfl, rfl, rfl, Iff.rfl⟩

end Stages

structure Usable (json : JsonLibrary) (root : json.Value) (msr4Channel : MSR4Channel)
    (stream : JsonParser.StreamingStruct) (channel : JsonParser.ChannelStruct) : Prop where
  loginRead : ∃ login, JsonParser.getLoginStruct json root = .ok login
  rxChannelRead : ∃ rx, JsonParser.getRxChannelStruct json root = .ok rx ∧
    selected rx.rxChannel = some msr4Channel
  streamRead : JsonParser.getStreamStruct json root = .ok stream
  channelRead : JsonParser.getChannelStruct json root = .ok channel
  named : channel.protocol = "HRZR"

structure ConfiguredAs (stream : JsonParser.StreamingStruct)
    (channel : JsonParser.ChannelStruct) (state : ChannelState) : Prop where
  satFrequency : state.channel.rf.satFrequencyHz = stream.satFrequency
  downFrequency : state.channel.rf.downFrequencyHz = stream.downFrequency
  bandwidth : state.channel.bandwidth.analysisBandwidthHz = stream.bandwithByAnalysisBandwidth
  port : state.udp.port = channel.port
  destinationAddress : state.udp.destinationAddress = channel.destinationAddress
  protocol : state.udp.protocol = .HRZR
  isStreaming : state.udp.isStreaming = false

/-- The call by which the first setter reads: after the login and the stop. -/
def firstSetter (state : ChannelState) : Nat := 1 + stopCalls state

def Accepts (answers : Nat → ErrorMessage) (state : ChannelState) : Prop :=
  ∀ k ∈ checkedCalls, (answers (firstSetter state + k)).errorCode = 0

/-- The device obeys what is not checked: it stops if it streams, and is set to HRZR if it
is not yet. -/
def Obeys (answers : Nat → ErrorMessage) (state : ChannelState) : Prop :=
  (state.udp.isStreaming = true → (answers 3).errorCode = 0) ∧
    (state.udp.protocol = .HRZR ∨ (answers (firstSetter state + 10)).errorCode = 0)

variable {json : JsonLibrary} {root : json.Value} {msr4Channel other : MSR4Channel}
  {stream otherStream : JsonParser.StreamingStruct}
  {channel otherChannel : JsonParser.ChannelStruct}

structure Sections where
  login : JsonParser.LoginStruct
  rxChannel : JsonParser.RxChannelStruct
  stream : JsonParser.StreamingStruct
  channel : JsonParser.ChannelStruct

def readSections (json : JsonLibrary) (root : json.Value) : Except Thrown Sections := do
  let login ← JsonParser.getLoginStruct json root
  let rxChannel ← JsonParser.getRxChannelStruct json root
  let stream ← JsonParser.getStreamStruct json root
  let channel ← JsonParser.getChannelStruct json root
  return ⟨login, rxChannel, stream, channel⟩

/-- All of the document is read before the first call. -/
theorem setMSR4ByJson_eq (json : JsonLibrary) (files : String → Option String) (path : String)
    (client : IqClient) : client.setMSR4ByJson json files path = (do
      let sections ← ofExcept (readSections json (JsonParser.getRoot json files path))
      let client ← client.login sections.login
      let client ← client.selectRxChannel sections.rxChannel.rxChannel
      client.configureChannel sections.stream sections.channel) := by
  simp only [readSections, ofExcept_bind, bind_assoc]
  rfl

theorem readSections_ok_iff {sections : Sections} : readSections json root = .ok sections ↔
    JsonParser.getLoginStruct json root = .ok sections.login ∧
      JsonParser.getRxChannelStruct json root = .ok sections.rxChannel ∧
      JsonParser.getStreamStruct json root = .ok sections.stream ∧
      JsonParser.getChannelStruct json root = .ok sections.channel := by
  simp only [readSections, except_bind_eq_ok]
  constructor
  · rintro ⟨login, first, rxChannel, second, stream, third, channel, fourth, read⟩
    cases read
    exact ⟨first, second, third, fourth⟩
  · rintro ⟨first, second, third, fourth⟩
    exact ⟨_, first, _, second, _, third, _, fourth, rfl⟩

theorem usable_iff : Usable json root msr4Channel stream channel ↔
    ∃ sections, readSections json root = .ok sections ∧
      selected sections.rxChannel.rxChannel = some msr4Channel ∧ sections.stream = stream ∧
      sections.channel = channel ∧ channel.protocol = "HRZR" := by
  constructor
  · intro usable
    obtain ⟨login, first⟩ := usable.loginRead
    obtain ⟨rxChannel, second, selects⟩ := usable.rxChannelRead
    exact ⟨⟨login, rxChannel, stream, channel⟩, readSections_ok_iff.mpr
      ⟨first, second, usable.streamRead, usable.channelRead⟩, selects, rfl, rfl, usable.named⟩
  · rintro ⟨sections, read, selects, rfl, rfl, named⟩
    obtain ⟨first, second, third, fourth⟩ := readSections_ok_iff.mp read
    exact ⟨⟨_, first⟩, ⟨_, second, selects⟩, third, fourth, named⟩

theorem Usable.unique (usable : Usable json root msr4Channel stream channel)
    (same : Usable json root other otherStream otherChannel) :
    msr4Channel = other ∧ stream = otherStream ∧ channel = otherChannel := by
  obtain ⟨sections, read, selects, rfl, rfl, -⟩ := usable_iff.mp usable
  obtain ⟨again, readAgain, otherSelects, rfl, rfl, -⟩ := usable_iff.mp same
  cases Except.ok.inj (read.symm.trans readAgain)
  exact ⟨Option.some.inj (selects.symm.trans otherSelects), rfl, rfl⟩

/-- The part of the configuration on the selected channel returns if and only if what is
checked is accepted, and sets everything if what is not checked is obeyed too. -/
theorem run_configureChannel (firmware : Firmware) (answers : Nat → ErrorMessage)
    (device : Device) (client : IqClient) (stream : JsonParser.StreamingStruct)
    (channel : JsonParser.ChannelStruct) :
    (∃ after, run (firmware.serve (delivering answers)) ⟨device, 1⟩
        (client.configureChannel stream channel) = (.ok client, after) ∧
      Accepts answers (device client.msr4Channel) ∧ channel.protocol = "HRZR" ∧
      (ConfiguredAs stream channel (after.device client.msr4Channel) ↔
        Obeys answers (device client.msr4Channel))) ∨
    (∃ thrown after, run (firmware.serve (delivering answers)) ⟨device, 1⟩
        (client.configureChannel stream channel) = (.error thrown, after) ∧
      (channel.protocol = "HRZR" → ¬ Accepts answers (device client.msr4Channel))) := by
  obtain ⟨stopped, stop, protocol, streaming⟩ :=
    run_stopStreaming firmware answers device 1 client
  rw [configureChannel, run_bind_ok _ stop]
  rcases run_setSettings firmware answers stopped _ client stream channel with
    ⟨settled, ran, zero, settles⟩ | ⟨thrown, ended, threw, k, checked_, refused⟩
  · rw [run_bind_ok _ ran]
    by_cases named : channel.protocol = "HRZR"
    · obtain ⟨final, request, rf, port, address, streams, requested⟩ :=
        run_setProtocolByName firmware answers settled _ client named
      rw [run_bind_ok _ request, run_pure]
      refine .inl ⟨_, rfl, zero, named, ?_⟩
      rw [settles.protocol, protocol] at requested
      rw [settles.isStreaming] at streams
      rw [Obeys, ← streaming, ← streams, firstSetter, ← requested]
      constructor
      · intro configured
        exact ⟨configured.isStreaming, configured.protocol⟩
      · rintro ⟨isStreaming, isHrzr⟩
        exact {
          satFrequency := by rw [rf, settles.satFrequency]
          downFrequency := by rw [rf, settles.downFrequency]
          bandwidth := by rw [rf, settles.bandwidth]
          port := by rw [port, settles.port]
          destinationAddress := by rw [address, settles.destinationAddress]
          protocol := isHrzr
          isStreaming := isStreaming }
    · right
      rw [setProtocolByName, if_neg named]
      exact ⟨_, _, rfl, fun same => absurd same named⟩
  · exact .inr ⟨thrown, ended, run_bind_error _ threw, fun _ zero => refused (zero k checked_)⟩

theorem run_setMSR4ByJson (json : JsonLibrary) (files : String → Option String) (path : String)
    (firmware : Firmware) (answers : Nat → ErrorMessage) (device : Device) (client : IqClient) :
    (∃ configured after stream channel, run (firmware.serve (delivering answers)) ⟨device, 0⟩
        (client.setMSR4ByJson json files path) = (.ok configured, after) ∧
      Usable json (JsonParser.getRoot json files path) configured.msr4Channel stream channel ∧
      Accepts answers (device configured.msr4Channel) ∧
      (ConfiguredAs stream channel (after.device configured.msr4Channel) ↔
        Obeys answers (device configured.msr4Channel))) ∨
    (∃ thrown after, run (firmware.serve (delivering answers)) ⟨device, 0⟩
        (client.setMSR4ByJson json files path) = (.error thrown, after) ∧
      ∀ msr4Channel stream channel,
        Usable json (JsonParser.getRoot json files path) msr4Channel stream channel →
          ¬ Accepts answers (device msr4Channel)) := by
  simp only [setMSR4ByJson_eq, run_ofExcept_bind, usable_iff]
  generalize JsonParser.getRoot json files path = root
  cases read : readSections json root with
  | error thrown =>
    refine .inr ⟨thrown, _, rfl, ?_⟩
    rintro _ _ _ ⟨sections, other, -⟩
    cases other
  | ok sections =>
    obtain ⟨user, loggedIn⟩ := run_login firmware answers device 0 client sections.login
    simp only [run_bind_ok _ loggedIn, run_bind, selectRxChannel_eq]
    cases selects : selected sections.rxChannel.rxChannel with
    | none =>
      refine .inr ⟨_, _, rfl, ?_⟩
      rintro _ _ _ ⟨_, same, chosen, -⟩
      cases same
      rw [selects] at chosen
      cases chosen
    | some msr4Channel =>
      rcases run_configureChannel firmware answers device (user.setRxChannel msr4Channel)
        sections.stream sections.channel with
          ⟨after, ran, accepts, named, sets⟩ | ⟨thrown, after, threw, refuses⟩
      · exact .inl ⟨user.setRxChannel msr4Channel, after, sections.stream, sections.channel, ran,
          ⟨sections, rfl, selects, rfl, rfl, named⟩, accepts, sets⟩
      · refine .inr ⟨thrown, after, threw, ?_⟩
        rintro _ _ _ ⟨_, same, chosen, rfl, rfl, named⟩
        cases same
        cases selects.symm.trans chosen
        exact refuses named

/-- A configuration that returns normally has set everything the document says, stopped
the stream and selected HRZR, if and only if the device, whenever it accepts all that is
checked, also stops if it streams and takes HRZR if it had another protocol. -/
theorem setMSR4ByJson_configures_iff (json : JsonLibrary) (files : String → Option String)
    (path : String) (firmware : Firmware) (answers : Nat → ErrorMessage) (device : Device)
    (client : IqClient) :
    (∀ configured, (run (firmware.serve (delivering answers)) ⟨device, 0⟩
        (client.setMSR4ByJson json files path)).1 = .ok configured →
      ∃ stream channel,
        Usable json (JsonParser.getRoot json files path) configured.msr4Channel stream channel ∧
        ConfiguredAs stream channel ((run (firmware.serve (delivering answers)) ⟨device, 0⟩
          (client.setMSR4ByJson json files path)).2.device configured.msr4Channel)) ↔
    ∀ msr4Channel stream channel,
      Usable json (JsonParser.getRoot json files path) msr4Channel stream channel →
      Accepts answers (device msr4Channel) → Obeys answers (device msr4Channel) := by
  rcases run_setMSR4ByJson json files path firmware answers device client with
    ⟨configured, after, stream, channel, ran, usable, accepts, sets⟩ |
      ⟨thrown, after, threw, refuses⟩
  · rw [ran]
    constructor
    · intro configures other otherStream otherChannel again _
      obtain ⟨setStream, setChannel, read, done⟩ := configures configured rfl
      obtain ⟨-, rfl, rfl⟩ := usable.unique read
      obtain ⟨rfl, -, -⟩ := usable.unique again
      exact sets.mp done
    · intro obeys client' returned
      cases returned
      exact ⟨stream, channel, usable, sets.mpr (obeys _ _ _ usable accepts)⟩
  · rw [threw]
    refine iff_of_true (fun configured returned => ?_) ?_
    · cases returned
    · intro msr4Channel stream channel usable accepts
      exact absurd accepts (refuses _ _ _ usable)

theorem checked_requests {P : Request → Prop} {setter : Calls ErrorMessage}
    (permitted : setter.Requests P) : (checked setter).Requests P := by
  refine requests_bind permitted fun err => ?_
  split <;> trivial

theorem unchecked_requests {P : Request → Prop} {setter : Calls ErrorMessage}
    (permitted : setter.Requests P) : (unchecked setter).Requests P :=
  requests_bind permitted fun _ => trivial

theorem login_spares (client : IqClient) (login : JsonParser.LoginStruct) :
    (client.login login).Requests (Request.Spares other) := by
  refine requests_bind (requests_bind (requests_bind (requests_request trivial)
    fun reply => ?_) fun _ => trivial) fun _ => ?_
  · cases reply <;> trivial
  · dsimp only
    split <;> trivial

theorem stopStreaming_spares {client : IqClient} (elsewhere : client.msr4Channel ≠ other) :
    client.stopStreaming.Requests (Request.Spares other) := by
  have looks : client.getStreamingStatus.Requests (Request.Spares other) :=
    requests_bind (GrpcClient.getUDPSetting_spares ..) fun _ => trivial
  refine requests_bind looks fun streaming => ?_
  split
  · exact unchecked_requests (modifyUdpSetting_spares elsewhere _)
  · trivial

theorem setSettings_spares {client : IqClient} (elsewhere : client.msr4Channel ≠ other)
    (stream : JsonParser.StreamingStruct) (channel : JsonParser.ChannelStruct) :
    (client.setSettings stream channel).Requests (Request.Spares other) := by
  have udp (edit : UdpSetting → UdpSetting) :
      (checked (client.modifyUdpSetting edit)).Requests (Request.Spares other) :=
    checked_requests (modifyUdpSetting_spares elsewhere edit)
  have rf (edit : RFSetting → RFSetting) :
      (checked (client.modifyRfSetting edit)).Requests (Request.Spares other) :=
    checked_requests (modifyRfSetting_spares elsewhere edit)
  refine requests_bind (rf _) fun _ => requests_bind (rf _) fun _ => requests_bind ?_
    fun _ => requests_bind (udp _) fun _ => udp _
  exact checked_requests (GrpcClient.callSetter_spares _ _ _ elsewhere)

theorem setProtocolByName_spares {client : IqClient} (elsewhere : client.msr4Channel ≠ other)
    (protocol : String) : (client.setProtocolByName protocol).Requests (Request.Spares other) := by
  unfold setProtocolByName
  split
  · exact unchecked_requests (modifyUdpSetting_spares elsewhere _)
  · trivial

theorem configureChannel_spares {client : IqClient} (elsewhere : client.msr4Channel ≠ other)
    (stream : JsonParser.StreamingStruct) (channel : JsonParser.ChannelStruct) :
    (client.configureChannel stream channel).Requests (Request.Spares other) := by
  refine requests_bind (stopStreaming_spares elsewhere) fun _ => ?_
  refine requests_bind (setSettings_spares elsewhere _ _) fun _ => ?_
  exact requests_bind (setProtocolByName_spares elsewhere _) fun _ => trivial

/-- A configuration leaves alone every channel that the document does not select, however
its calls end and even if it throws. -/
theorem run_setMSR4ByJson_spared (json : JsonLibrary) (files : String → Option String)
    (path : String) (firmware : Firmware) (outcomes : Outcomes) (world : World)
    (client : IqClient) (unselected : ∀ sections,
      readSections json (JsonParser.getRoot json files path) = .ok sections →
        selected sections.rxChannel.rxChannel ≠ some other) :
    (run (firmware.serve outcomes) world (client.setMSR4ByJson json files path)).2.device other =
      world.device other := by
  rw [setMSR4ByJson_eq]
  apply run_spared
  cases read : readSections json (JsonParser.getRoot json files path) with
  | error thrown => trivial
  | ok sections =>
    rw [ofExcept_ok_bind]
    refine requests_bind (login_spares client sections.login) fun user => ?_
    rw [selectRxChannel_eq]
    cases selects : selected sections.rxChannel.rxChannel with
    | none => trivial
    | some msr4Channel =>
      have elsewhere : msr4Channel ≠ other := by
        rintro rfl
        exact unselected sections read selects
      have selecting : (user.setRxChannel msr4Channel).msr4Channel ≠ other := elsewhere
      exact configureChannel_spares selecting sections.stream sections.channel

/-- The document that has all of the keys, with these values. -/
def fullDocument (sections : Sections) : Document := .object [
  ("LoginSettings", .object [
    ("Ip", .string sections.login.ip), ("User", .string sections.login.user),
    ("Password", .string sections.login.password)]),
  ("RxChannelSettings", .object [("RxChannel", .int sections.rxChannel.rxChannel)]),
  ("StreamingSettings", .object [
    ("SatFrequency", .int sections.stream.satFrequency),
    ("DownFrequency", .int sections.stream.downFrequency),
    ("BandwidthByAnalysisBandwidth", .int sections.stream.bandwithByAnalysisBandwidth)]),
  ("ChannelSettings", .object [
    ("Port", .int sections.channel.port),
    ("DestinationAddress", .string sections.channel.destinationAddress),
    ("Protocol", .string sections.channel.protocol)])]

theorem getRoot_library (text path : String) (document : Document) :
    JsonParser.getRoot (Document.library text document) (fun _ => some text) path = document := by
  simp only [JsonParser.getRoot, Document.library, if_true]

theorem readSections_fullDocument (text : String) (sections : Sections) :
    readSections (Document.library text (fullDocument sections)) (fullDocument sections) =
      .ok sections := rfl

/-- The values of `configFiles/example.json`, with any channel and protocol. -/
def exampleSections (rxChannel : Int) (protocol : String) : Sections where
  login := ⟨"some.device.net", "user", "password"⟩
  rxChannel := ⟨rxChannel⟩
  stream := ⟨1500000000, 0, 194100000⟩
  channel := ⟨5001, "127.0.0.1", protocol⟩

/-- `configFiles/example.json`, on one line. -/
def exampleText : String :=
  "\x7b \"LoginSettings\": \x7b \"Ip\": \"some.device.net\", \"User\": \"user\", " ++
  "\"Password\": \"password\" \x7d, \"RxChannelSettings\": \x7b \"RxChannel\": 1 \x7d, " ++
  "\"StreamingSettings\": \x7b \"SatFrequency\": 1500000000, \"DownFrequency\": 0, " ++
  "\"BandwidthByAnalysisBandwidth\": 194100000 \x7d, \"ChannelSettings\": \x7b " ++
  "\"Port\": 5001, \"DestinationAddress\": \"127.0.0.1\", \"Protocol\": \"HRZR\" \x7d \x7d"

def exampleDocument : Document := fullDocument (exampleSections 1 "HRZR")

def exampleLibrary : JsonLibrary := Document.library exampleText exampleDocument

def exampleFiles (path : String) : Option String :=
  if path = "configFiles/example.json" then some exampleText else none

theorem getRoot_exampleFiles :
    JsonParser.getRoot exampleLibrary exampleFiles "configFiles/example.json" =
      exampleDocument := by
  rw [JsonParser.getRoot, exampleFiles, if_pos rfl]
  simp only [exampleLibrary, Document.library, if_pos]

/-- The device keeps streaming when it is asked to stop, and accepts everything else. -/
def refusingStop (call : Nat) : ErrorMessage :=
  if call = 3 then ⟨7, .SettingUDPSettingFailed, "streaming"⟩ else default

theorem usable_exampleDocument : Usable exampleLibrary exampleDocument .Rx1
    ⟨1500000000, 0, 194100000⟩ ⟨5001, "127.0.0.1", "HRZR"⟩ where
  loginRead := ⟨⟨"some.device.net", "user", "password"⟩, rfl⟩
  rxChannelRead := ⟨⟨1⟩, rfl, rfl⟩
  streamRead := rfl
  channelRead := rfl
  named := rfl

theorem refused_stop_ignored :
    ¬ ∀ configured, (run (storingFirmware.serve (delivering refusingStop)) ⟨streamingDevice, 0⟩
        (IqClient.create.setMSR4ByJson exampleLibrary exampleFiles
          "configFiles/example.json")).1 = .ok configured →
      ∃ stream channel,
        Usable exampleLibrary (JsonParser.getRoot exampleLibrary exampleFiles
          "configFiles/example.json") configured.msr4Channel stream channel ∧
        ConfiguredAs stream channel
          ((run (storingFirmware.serve (delivering refusingStop)) ⟨streamingDevice, 0⟩
            (IqClient.create.setMSR4ByJson exampleLibrary exampleFiles
              "configFiles/example.json")).2.device configured.msr4Channel) := by
  rcases run_setMSR4ByJson exampleLibrary exampleFiles "configFiles/example.json"
    storingFirmware refusingStop streamingDevice .create with
    ⟨configured, after, stream, channel, ran, usable, -, sets⟩ | ⟨thrown, after, -, refuses⟩
  · rw [ran]
    intro configures
    obtain ⟨otherStream, otherChannel, same, done⟩ := configures configured rfl
    obtain ⟨-, rfl, rfl⟩ := usable.unique same
    exact absurd ((sets.mp done).1 rfl) (by decide)
  · rw [getRoot_exampleFiles] at refuses
    have accepts : Accepts refusingStop (streamingDevice .Rx1) := by
      unfold Accepts
      decide
    exact absurd accepts (refuses _ _ _ usable_exampleDocument)

end IqClient
end JerryDriver
